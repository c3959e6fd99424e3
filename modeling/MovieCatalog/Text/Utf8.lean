/-!
# Reading octets as UTF-8

Octets are cut into pieces: well-formed sequences, each one a character, and stray parts. A stray
part is as long as it can be while it still is the beginning of some well-formed sequence, and one
octet long where no sequence begins. Replacing every stray part by U+FFFD gives the lossy reading.
-/

namespace MovieCatalog.Text

/-- A piece of an octet sequence: a character, or a part that belongs to none. -/
inductive Piece where
  | scalar (c : Char)
  | stray (octets : List UInt8)
deriving DecidableEq, Repr

/-- The number of octets a piece was read from. -/
def Piece.size : Piece → Nat
  | .scalar c => c.utf8Size
  | .stray octets => octets.length

/-- The octets a piece was read from. -/
def Piece.octets : Piece → List UInt8
  | .scalar c => String.utf8EncodeChar c
  | .stray octets => octets

namespace Utf8

/-- The octets of a text. -/
def encode (s : List Char) : List UInt8 :=
  s.flatMap String.utf8EncodeChar

/-- A sequence that has begun and is not complete: the bits read so far, the ranges in which the
octets to come must lie, and the octets read so far, the last one first. -/
structure Partial where
  bits : Nat
  next : UInt8 × UInt8
  later : List (UInt8 × UInt8)
  seen : List UInt8
deriving DecidableEq

/-- The range of an octet that continues a sequence. -/
def continuation : UInt8 × UInt8 := (0x80, 0xBF)

/-- What an octet begins: a character of its own, a longer sequence, or nothing. The first octet to
follow is narrowed where the full range would admit overlong forms, surrogates or code points above
U+10FFFF. -/
def begin (b : UInt8) : Piece ⊕ Partial :=
  let n := b.toNat
  if n < 0x80 then .inl (.scalar (Char.ofNat n))
  else if n < 0xC2 then .inl (.stray [b])
  else if n < 0xE0 then .inr ⟨n - 0xC0, continuation, [], [b]⟩
  else if n < 0xF0 then
    let first : UInt8 × UInt8 :=
      if n = 0xE0 then (0xA0, 0xBF) else if n = 0xED then (0x80, 0x9F) else continuation
    .inr ⟨n - 0xE0, first, [continuation], [b]⟩
  else if n < 0xF5 then
    let first : UInt8 × UInt8 :=
      if n = 0xF0 then (0x90, 0xBF) else if n = 0xF4 then (0x80, 0x8F) else continuation
    .inr ⟨n - 0xF0, first, [continuation, continuation], [b]⟩
  else .inl (.stray [b])

/-- Where a reading stands: the pieces found, the last one first, and the sequence begun. -/
structure Reading where
  found : List Piece
  pending : Option Partial

/-- Reads an octet at which something new begins. -/
def Reading.start (found : List Piece) (b : UInt8) : Reading :=
  match begin b with
  | .inl piece => ⟨piece :: found, none⟩
  | .inr p => ⟨found, some p⟩

/-- Reads one octet. One that does not continue the sequence begun makes what was read of it
stray, and begins something new. -/
def Reading.step : Reading → UInt8 → Reading
  | ⟨found, none⟩, b => .start found b
  | ⟨found, some p⟩, b =>
    if p.next.1 ≤ b ∧ b ≤ p.next.2 then
      let bits := p.bits * 64 + (b.toNat - 0x80)
      match p.later with
      | [] => ⟨.scalar (Char.ofNat bits) :: found, none⟩
      | r :: rs => ⟨found, some ⟨bits, r, rs, b :: p.seen⟩⟩
    else .start (.stray p.seen.reverse :: found) b

/-- The pieces found once the octets have ended. -/
def Reading.close : Reading → List Piece
  | ⟨found, none⟩ => found.reverse
  | ⟨found, some p⟩ => (.stray p.seen.reverse :: found).reverse

/-- The pieces of an octet sequence. -/
def pieces (octets : List UInt8) : List Piece :=
  (octets.foldl Reading.step ⟨[], none⟩).close

/-- The character that stands for a stray part. -/
def replacement : Char := '\uFFFD'

/-- The lossy reading: every stray part becomes one U+FFFD. -/
def lossy (octets : List UInt8) : List Char :=
  (pieces octets).map fun
    | .scalar c => c
    | .stray _ => replacement

end Utf8

/-- The pieces of a text: all of them characters. -/
def pieces (s : String) : List Piece :=
  s.toList.map .scalar

end MovieCatalog.Text
