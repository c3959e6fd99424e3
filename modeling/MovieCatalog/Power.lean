/-!
# Powers and word sizes

Powers of two and of ten are numbers of the model; the sizes of machine words are named, so that
bounds can be compared by linear arithmetic.
-/

namespace MovieCatalog

/-- A power of two. -/
def twoTo (n : Nat) : Nat := Nat.pow 2 n

/-- A power of ten. -/
def tenTo (n : Nat) : Nat := Nat.pow 10 n

namespace Word

/-- The number of words of 16 bits. -/
def size16 : Nat := 0x10000

/-- The number of words of 32 bits. -/
def size32 : Nat := 0x100000000

/-- The number of signed words of 64 bits that are not negative. -/
def half64 : Nat := 0x8000000000000000

/-- The number of words of 64 bits. -/
def size64 : Nat := 0x10000000000000000

end Word

end MovieCatalog
