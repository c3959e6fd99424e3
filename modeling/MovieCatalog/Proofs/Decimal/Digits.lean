import MovieCatalog.Decimal.Literal
import Mathlib

/-!
# Numerals

The numeral of a natural number has no leading zero (`Numeral.ofNat_ne_zero_cons`), and a factor of
ten appends a zero to it (`Numeral.ofNat_mul_tenTo`). What a string of digits denotes does not
change by zeros in front of it and is multiplied by ten with every zero behind it. A literal has one
text (`Decimal.Literal.text`).
-/

namespace MovieCatalog

theorem tenTo_pos (n : Nat) : 0 < tenTo n := Nat.pow_pos (by decide)

theorem tenTo_zero : tenTo 0 = 1 := rfl

theorem tenTo_succ (n : Nat) : tenTo (n + 1) = tenTo n * 10 := rfl

theorem tenTo_add (m n : Nat) : tenTo (m + n) = tenTo m * tenTo n := Nat.pow_add 10 m n

theorem twoTo_pos (n : Nat) : 0 < twoTo n := Nat.pow_pos (by decide)

theorem twoTo_add (m n : Nat) : twoTo (m + n) = twoTo m * twoTo n := Nat.pow_add 2 m n

theorem twoTo_le {m n : Nat} (h : m ≤ n) : twoTo m ≤ twoTo n := Nat.pow_le_pow_right (by decide) h

/-- A signed integer of 64 bits is kept in a word. -/
theorem Word.toInt_ofInt {n : Int} (hlow : -(half64 : Int) ≤ n) (hhigh : n < half64) :
    (Int64.ofInt n).toInt = n := by
  simp only [half64] at hlow hhigh
  exact Int64.toInt_ofInt_of_le (by omega) (by omega)

namespace Numeral

theorem ofNat_ne_nil (n : Nat) : ofNat n ≠ [] := Nat.toDigits_ne_nil

theorem length_ofNat_pos (n : Nat) : 0 < (ofNat n).length := Nat.length_toDigits_pos

theorem isDigit_of_mem_ofNat {n : Nat} {c : Char} (h : c ∈ ofNat n) : c.isDigit = true :=
  Nat.isDigit_of_mem_toDigits (by decide) (by decide) h

/-- Reading the digits of a number gives the number. -/
theorem ofDigitChars_ofNat (n : Nat) : Nat.ofDigitChars 10 (ofNat n) 0 = n :=
  Nat.ofDigitChars_ten_toDigits

/-- A number has at most so many digits as long as it is below a power of ten. -/
theorem length_ofNat_le_iff {n k : Nat} (hk : 0 < k) : (ofNat n).length ≤ k ↔ n < tenTo k :=
  Nat.length_toDigits_le_iff (by decide) hk

/-- The digits of ten times a number. -/
theorem ofNat_mul_ten {n : Nat} (hn : 0 < n) : ofNat (n * 10) = ofNat n ++ ['0'] := by
  have h := Nat.toDigits_append_toDigits (b := 10) (d := 0) (by decide) hn (by decide)
  rw [Nat.add_zero, Nat.mul_comm] at h
  exact h.symm

/-- A factor of ten appends a zero. -/
theorem ofNat_mul_tenTo {n : Nat} (hn : 0 < n) (k : Nat) :
    ofNat (n * tenTo k) = ofNat n ++ List.replicate k '0' := by
  induction k with
  | zero => rw [tenTo_zero, Nat.mul_one, List.replicate_zero, List.append_nil]
  | succ k ih =>
    rw [tenTo_succ, ← Nat.mul_assoc, ofNat_mul_ten (Nat.mul_pos hn (tenTo_pos k)), ih,
      List.append_assoc, ← List.replicate_succ']

/-- The first digit of a positive number is not zero. -/
theorem ofNat_ne_zero_cons {n : Nat} (hn : 0 < n) (rest : List Char) : ofNat n ≠ '0' :: rest := by
  induction n using Nat.strongRecOn generalizing rest with
  | ind n ih =>
    intro h
    rw [ofNat, Nat.toDigits_eq_if (by decide)] at h
    split at h
    · next hlt =>
      -- A single digit.
      have hdigit := (List.cons.inj h).1
      interval_cases n <;> revert hdigit <;> decide
    · next hge =>
      have hpos : 0 < n / 10 := Nat.div_pos (Nat.le_of_not_lt hge) (by decide)
      cases hd : Nat.toDigits 10 (n / 10) with
      | nil => exact Nat.toDigits_ne_nil hd
      | cons c cs =>
        rw [hd, List.cons_append] at h
        obtain rfl := (List.cons.inj h).1
        exact ih (n / 10) (Nat.div_lt_self hn (by decide)) hpos cs hd

/-- No numeral has a zero before other digits. -/
theorem ofNat_ne_zero_cons_cons (n : Nat) (c : Char) (rest : List Char) :
    ofNat n ≠ '0' :: c :: rest := by
  rcases Nat.eq_zero_or_pos n with rfl | hn
  · exact fun h => List.cons_ne_nil c rest (List.cons.inj h).2.symm
  · exact ofNat_ne_zero_cons hn (c :: rest)

/-- The value of digits with zeros in front of them. -/
theorem ofDigitChars_zeros_append (k : Nat) (ds : List Char) :
    Nat.ofDigitChars 10 (List.replicate k '0' ++ ds) 0 = Nat.ofDigitChars 10 ds 0 := by
  rw [Nat.ofDigitChars_append, Nat.ofDigitChars_replicate_zero, Nat.mul_zero]

/-- The value of digits with zeros behind them. -/
theorem ofDigitChars_append_zeros (k : Nat) (ds : List Char) :
    Nat.ofDigitChars 10 (ds ++ List.replicate k '0') 0 = Nat.ofDigitChars 10 ds 0 * tenTo k := by
  rw [Nat.ofDigitChars_append, Nat.ofDigitChars_replicate_zero, Nat.mul_comm]
  rfl

end Numeral

/-! ## Literals -/

/-- The power of ten that ends a literal, as it is written. -/
def Decimal.powerText (p : Int) : List Char :=
  if p = 0 then [] else 'e' :: (if p < 0 then '-' else '+') :: Numeral.ofNat p.natAbs

namespace Decimal.Literal

/-- The text of a literal behind its sign. A point and a power of ten are written only where there
is something to write behind them. -/
def unsignedText (l : Literal) : List Char :=
  l.whole ++ (if l.fraction = [] then [] else '.' :: l.fraction)
    ++ (if l.power = 0 then []
      else 'e' :: (if l.power < 0 then '-' else '+') :: Numeral.ofNat l.power.natAbs)

/-- The text of a literal. -/
def text (l : Literal) : List Char :=
  (if l.negative then ['-'] else []) ++ l.unsignedText

/-- A literal as it is spelt in JSON: digits before the point, without leading zeros, and none but
digits behind it. -/
structure WellSpelt (l : Literal) : Prop where
  whole_ne_nil : l.whole ≠ []
  whole_digits : ∀ c ∈ l.whole, c.isDigit = true
  no_leading_zero : ∀ c rest, l.whole ≠ '0' :: c :: rest
  fraction_digits : ∀ c ∈ l.fraction, c.isDigit = true

end Decimal.Literal

end MovieCatalog
