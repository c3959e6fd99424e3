/-!
# Small letters

Letters of the Latin, Greek, Cyrillic and Armenian alphabets have a small form. In most blocks it
stands at a fixed distance from the capital; in some, capitals and small letters alternate.
-/

namespace MovieCatalog.Text

/-- Blocks of capitals, each with the distance to the small letters. -/
def capitalBlocks : List (Nat × Nat × Nat) :=
  [(0x41, 0x5A, 32), (0xC0, 0xD6, 32), (0xD8, 0xDE, 32), (0x388, 0x38A, 37), (0x391, 0x3A1, 32),
    (0x3A3, 0x3AB, 32), (0x400, 0x40F, 80), (0x410, 0x42F, 32), (0x531, 0x556, 48)]

/-- Blocks in which each capital is followed by its small letter. -/
def alternatingBlocks : List (Nat × Nat) :=
  [(0x100, 0x12F), (0x132, 0x137), (0x139, 0x148), (0x14A, 0x177), (0x179, 0x17E), (0x460, 0x481),
    (0x48A, 0x4BF), (0x4D0, 0x52F), (0x1E00, 0x1E95), (0x1EA0, 0x1EFF)]

/-- The small form of a letter; any other character is its own. -/
def small (c : Char) : Char :=
  let n := c.toNat
  match capitalBlocks.find? fun b => b.1 ≤ n ∧ n ≤ b.2.1 with
  | some b => Char.ofNat (n + b.2.2)
  | none =>
    match alternatingBlocks.find? fun b => b.1 ≤ n ∧ n ≤ b.2 with
    | some b => if (n - b.1) % 2 = 0 then Char.ofNat (n + 1) else c
    | none => c

end MovieCatalog.Text
