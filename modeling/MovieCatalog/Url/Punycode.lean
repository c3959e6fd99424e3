/-!
# Texts in letters, digits and hyphens

A text over all characters is written with ASCII letters, digits and hyphens only: first its ASCII
characters, then, behind a hyphen, where the others are to be inserted and which they are, in
ascending order. Each insertion is a number in base 36 whose digits have thresholds that adapt to
the numbers seen so far.
-/

namespace MovieCatalog.Url.Punycode

/-- The digit with a given value below 36. -/
def digit (d : Nat) : Char :=
  if d < 26 then Char.ofNat ('a'.toNat + d) else Char.ofNat ('0'.toNat + (d - 26))

/-- The value of a digit. -/
def digit? (c : Char) : Option Nat :=
  if c.isDigit then some (c.toNat - '0'.toNat + 26)
  else if c.isAlpha then some (c.toLower.toNat - 'a'.toNat)
  else none

/-- The threshold of the digit at a position; positions are counted in steps of 36. -/
def threshold (bias position : Nat) : Nat :=
  min 26 (max 1 (position - bias))

/-- A threshold is never zero, so that what a digit leaves of a number is smaller. -/
theorem threshold_pos (bias position : Nat) : 0 < threshold bias position := by
  simp only [threshold]
  omega

/-- Divides by 35 until at most 455 is left; 36 is counted for each division. -/
def shrink (n : Nat) : Nat × Nat :=
  if n ≤ 455 then (n, 0) else ((shrink (n / 35)).1, (shrink (n / 35)).2 + 36)
termination_by n

/-- The bias behind a number. `count` characters have been placed. -/
def adapt (delta count : Nat) (first : Bool) : Nat :=
  let scaled := if first then delta / 700 else delta / 2
  let (rest, steps) := shrink (scaled + scaled / count)
  steps + 36 * rest / (rest + 38)

/-- The digits of a number. -/
def digits (bias position n : Nat) : List Char :=
  let t := threshold bias position
  if n < t then [digit n]
  else digit (t + (n - t) % (36 - t)) :: digits bias (position + 36) ((n - t) / (36 - t))
termination_by n
decreasing_by
  have hp := threshold_pos bias position
  have hd : (n - threshold bias position) / (36 - threshold bias position)
      ≤ n - threshold bias position := Nat.div_le_self ..
  omega

/-- Where writing stands: the digits written, the distance to the next insertion, the bias, and the
number of characters placed. -/
structure Writing where
  written : List Char
  delta : Nat
  bias : Nat
  placed : Nat

/-- Passes a character of the text while characters with code point `n` are inserted. `ascii` is the
number of ASCII characters. -/
def Writing.pass (ascii n : Nat) (w : Writing) (c : Char) : Writing :=
  if c.toNat < n then { w with delta := w.delta + 1 }
  else if c.toNat = n then
    { written := w.written ++ digits w.bias 36 w.delta
      delta := 0
      bias := adapt w.delta (w.placed + 1) (w.placed = ascii)
      placed := w.placed + 1 }
  else w

/-- Writes the insertions of all characters with the given code points, which ascend. `least` is the
code point from which distances are counted. -/
def insertions (text : List Char) (ascii : Nat) : List Nat → (least : Nat) → Writing → List Char
  | [], _, w => w.written
  | n :: rest, least, w =>
    let w := { w with delta := w.delta + (n - least) * (w.placed + 1) }
    let w := text.foldl (Writing.pass ascii n) w
    insertions text ascii rest (n + 1) { w with delta := w.delta + 1 }

/-- The ASCII form of a text. -/
def encode (text : List Char) : List Char :=
  let ascii := text.filter fun c => c.toNat < 0x80
  let others := ((text.map Char.toNat).filter (0x80 ≤ ·)).mergeSort.eraseDups
  ascii ++ (if ascii.isEmpty then [] else ['-'])
    ++ insertions text ascii.length others 0x80 ⟨[], 0, 72, ascii.length⟩

/-- Where reading stands: the characters placed, the place and the code point reached, and the
number being read: the place before it, the weight of the next digit and its position. -/
structure Partial where
  placed : List Char
  place : Nat
  code : Nat
  bias : Nat
  start : Nat
  weight : Nat
  position : Nat

/-- Takes a digit into account. -/
def Partial.take (p : Partial) (c : Char) : Option Partial := do
  let d ← digit? c
  let place := p.place + d * p.weight
  let t := threshold p.bias p.position
  if t ≤ d then
    return { p with place := place, weight := p.weight * (36 - t), position := p.position + 36 }
  else
    let count := p.placed.length + 1
    let code := p.code + place / count
    let bias := adapt (place - p.start) count (p.start = 0)
    if h : code.isValidChar then
      let next := place % count + 1
      return {
        placed := p.placed.insertIdx (place % count) (Char.ofNatAux code h)
        place := next, code := code, bias := bias, start := next, weight := 1, position := 36 }
    else none

/-- Reads the ASCII form of a text. -/
def decode? (s : List Char) : Option (List Char) :=
  let behind := (s.reverse.takeWhile (· ≠ '-')).reverse
  let ascii := (s.take (s.length - behind.length)).dropLast
  match behind.foldlM Partial.take ⟨ascii, 0, 0x80, 72, 0, 1, 36⟩ with
  | some p => if p.weight = 1 ∧ p.position = 36 then some p.placed else none
  | none => none

end MovieCatalog.Url.Punycode
