import MovieCatalog.Binary64.Layout
import MovieCatalog.Proofs.Binary64.Shortest

/-!
# What the text of a finite value spells

The text that a layout gives a finite value is the text of a literal (`Layout.text_eq`), and this
literal has the value that was written (`Layout.ofDecimal_literal`): zeros that the layout adds
behind the digits are taken back by the power of ten.
-/

namespace MovieCatalog.Binary64.Layout

open Decimal (Literal)

/-! ## Literals of a layout -/

/-- The zero behind the point that a whole number keeps. -/
def wholeFraction (l : Layout) : List Char := if l.pointZero then ['0'] else []

/-- The literal that a number in plain form is. -/
def plainLiteral (l : Layout) (negative : Bool) (digits : List Char) (exponent : Int) : Literal :=
  let n : Int := digits.length
  if 0 ≤ exponent then
    ⟨negative, digits ++ List.replicate exponent.toNat '0', l.wholeFraction, 0⟩
  else if 0 < n + exponent then
    ⟨negative, digits.take (n + exponent).toNat, digits.drop (n + exponent).toNat, 0⟩
  else ⟨negative, ['0'], List.replicate (-(n + exponent)).toNat '0' ++ digits, 0⟩

/-- The literal that a decimal number is. -/
def decimalLiteral (l : Layout) (negative : Bool) (d : Decimal) : Literal :=
  let digits := Numeral.ofNat d.digits
  let weight := d.exponent + digits.length - 1
  if l.plain weight then l.plainLiteral negative digits d.exponent
  else ⟨negative, digits.take 1, digits.drop 1, weight⟩

/-- The literal that a finite value is. -/
def literal (l : Layout) (negative : Bool) (ordinal : Fin ordinalBound) : Literal :=
  if ordinal.val = 0 then l.plainLiteral negative ['0'] 0
  else l.decimalLiteral negative (shortest l.tie ordinal)

theorem plainLiteral_negative (l : Layout) (negative : Bool) (digits : List Char) (exponent : Int) :
    (l.plainLiteral negative digits exponent).negative = negative := by
  simp only [plainLiteral]
  split
  · rfl
  · split <;> rfl

theorem literal_negative (l : Layout) (negative : Bool) (ordinal : Fin ordinalBound) :
    (l.literal negative ordinal).negative = negative := by
  simp only [literal, decimalLiteral]
  split
  · exact plainLiteral_negative ..
  · split
    · exact plainLiteral_negative ..
    · rfl

/-! ## Texts -/

/-- Plain form is the text of its literal. -/
theorem plainText_eq (l : Layout) (negative : Bool) {digits : List Char} (hne : digits ≠ [])
    (exponent : Int) :
    l.plainText digits exponent = (l.plainLiteral negative digits exponent).unsignedText := by
  have hpos := List.length_pos_iff.2 hne
  simp only [plainText, plainLiteral]
  split
  · by_cases hzero : l.pointZero = true
    · simp [Literal.unsignedText, wholeFraction, hzero]
    · simp [Literal.unsignedText, wholeFraction, hzero]
  · split
    · next hbefore =>
      have hdrop : digits.drop (digits.length + exponent).toNat ≠ [] := by
        rw [ne_eq, List.drop_eq_nil_iff]
        omega
      simp [Literal.unsignedText, hdrop]
    · simp [Literal.unsignedText, hne]

/-- The form with a power of ten is the text of its literal. -/
theorem scaledText_eq (negative : Bool) {digits : List Char} (hne : digits ≠ []) {weight : Int}
    (hweight : weight ≠ 0) :
    scaledText digits weight
      = (⟨negative, digits.take 1, digits.drop 1, weight⟩ : Literal).unsignedText := by
  cases digits with
  | nil => exact absurd rfl hne
  | cons d rest =>
    cases rest with
    | nil => simp [scaledText, Literal.unsignedText, hweight]
    | cons e rest => simp [scaledText, Literal.unsignedText, hweight]

/-- The text of a decimal number is the text of its literal. -/
theorem decimalText_eq {l : Layout} (hplain : l.plain 0 = true) (negative : Bool) (d : Decimal) :
    l.decimalText d = (l.decimalLiteral negative d).unsignedText := by
  have hne := Numeral.ofNat_ne_nil d.digits
  simp only [decimalText, decimalLiteral]
  split
  · exact l.plainText_eq negative hne d.exponent
  · next hscaled =>
    refine scaledText_eq negative hne fun hzero => hscaled ?_
    rw [hzero, hplain]

/-- A layout that writes numbers with one digit before the point plainly writes literals. -/
theorem text_eq {l : Layout} (hplain : l.plain 0 = true) (negative : Bool)
    (ordinal : Fin ordinalBound) :
    l.text negative ordinal = (l.literal negative ordinal).text := by
  have hbody : (if ordinal.val = 0 then l.plainText ['0'] 0
      else l.decimalText (shortest l.tie ordinal)) = (l.literal negative ordinal).unsignedText := by
    rw [literal]
    split
    · exact l.plainText_eq negative (List.cons_ne_nil _ _) 0
    · exact decimalText_eq hplain negative _
  rw [text, Literal.text, literal_negative, ← hbody]
  cases negative <;> simp

/-! ## Values -/

/-- What stands behind the point of a whole number is zeros only. -/
theorem wholeFraction_eq_replicate (l : Layout) :
    l.wholeFraction = List.replicate l.wholeFraction.length '0' := by
  rw [wholeFraction]
  split <;> rfl

/-- Plain form keeps the value: zeros behind the digits come with as much less power of ten, and
zeros in front of them do not count. -/
theorem ofDecimal_plainLiteral (l : Layout) (negative : Bool) (n : Nat) (exponent : Int) :
    ofDecimal negative (l.plainLiteral negative (Numeral.ofNat n) exponent).magnitude
      = ofDecimal negative ⟨n, exponent⟩ := by
  simp only [plainLiteral]
  split
  · next hexponent =>
    obtain ⟨e, rfl⟩ := Int.eq_ofNat_of_zero_le hexponent
    have hdigits : Numeral.ofNat n ++ List.replicate (e : Int).toNat '0' ++ l.wholeFraction
        = Numeral.ofNat n ++ List.replicate (e + l.wholeFraction.length) '0' := by
      conv_lhs => rw [wholeFraction_eq_replicate]
      rw [Int.toNat_natCast, List.append_assoc, List.replicate_append_replicate]
    have hpower : (0 : Int) - l.wholeFraction.length = e - (e + l.wholeFraction.length : Nat) := by
      omega
    simp only [Literal.magnitude]
    rw [hdigits, hpower, Numeral.ofDigitChars_append_zeros, Numeral.ofDigitChars_ofNat,
      ofDecimal_shift]
  · split
    · next hbefore =>
      simp only [Literal.magnitude]
      rw [List.take_append_drop, Numeral.ofDigitChars_ofNat, List.length_drop]
      congr 2
      omega
    · next hbefore =>
      have hdigits : Nat.ofDigitChars 10
          (['0'] ++ (List.replicate (-((Numeral.ofNat n).length + exponent)).toNat '0'
            ++ Numeral.ofNat n)) 0 = n := by
        rw [← List.append_assoc, ← List.replicate_one, List.replicate_append_replicate,
          Numeral.ofDigitChars_zeros_append, Numeral.ofDigitChars_ofNat]
      simp only [Literal.magnitude]
      rw [hdigits, List.length_append, List.length_replicate]
      congr 2
      omega

/-- The literal of a decimal number is read as this number, in either form. -/
theorem ofDecimal_decimalLiteral (l : Layout) (negative : Bool) (d : Decimal) :
    ofDecimal negative (l.decimalLiteral negative d).magnitude = ofDecimal negative d := by
  have hpos := Numeral.length_ofNat_pos d.digits
  simp only [decimalLiteral]
  split
  · exact l.ofDecimal_plainLiteral negative d.digits d.exponent
  · simp only [Literal.magnitude]
    rw [List.take_append_drop, Numeral.ofDigitChars_ofNat, List.length_drop]
    congr 2
    omega

/-- The text of a finite value spells this value. -/
theorem ofDecimal_literal (l : Layout) (negative : Bool) (ordinal : Fin ordinalBound) :
    ofDecimal negative (l.literal negative ordinal).magnitude = .finite negative ordinal := by
  rw [literal]
  split
  · next hzero =>
    have hvalue := l.ofDecimal_plainLiteral negative 0 0
    rw [show Numeral.ofNat 0 = ['0'] from rfl] at hvalue
    rw [hvalue, ofDecimal, if_pos (.inl rfl), signedZero]
    congr 1
    exact Fin.ext hzero.symm
  · next hzero =>
    rw [ofDecimal_decimalLiteral]
    exact ofDecimal_eq_finite (ofDecimal_shortest l.tie ordinal) negative

/-! ## Spelling -/

theorem isDigit_of_mem_zeros {n : Nat} {c : Char} (h : c ∈ List.replicate n '0') :
    c.isDigit = true := by
  rw [List.eq_of_mem_replicate h]
  rfl

theorem isDigit_of_mem_wholeFraction {l : Layout} {c : Char} (h : c ∈ l.wholeFraction) :
    c.isDigit = true := by
  rw [wholeFraction_eq_replicate] at h
  exact isDigit_of_mem_zeros h

/-- Plain form is well spelt when the digits have no leading zero. -/
theorem plainLiteral_wellSpelt (l : Layout) (negative : Bool) {digits : List Char} (exponent : Int)
    (hne : digits ≠ []) (hdigits : ∀ c ∈ digits, c.isDigit = true)
    (hlead : ∀ rest, digits ≠ '0' :: rest) :
    (l.plainLiteral negative digits exponent).WellSpelt := by
  have hpos := List.length_pos_iff.2 hne
  obtain ⟨d, ds, rfl⟩ := List.exists_cons_of_ne_nil hne
  have hd : d ≠ '0' := fun h => hlead ds (by rw [h])
  simp only [plainLiteral]
  split
  · exact {
      whole_ne_nil := List.cons_ne_nil _ _
      whole_digits := fun c hc =>
        (List.mem_append.1 hc).elim (hdigits c) isDigit_of_mem_zeros
      no_leading_zero := fun c rest h => hd (List.cons.inj h).1
      fraction_digits := fun c hc => isDigit_of_mem_wholeFraction hc }
  · split
    · next hbefore =>
      obtain ⟨k, hk⟩ : ∃ k, (((d :: ds).length : Int) + exponent).toNat = k + 1 :=
        ⟨_, (Nat.sub_add_cancel (by omega)).symm⟩
      rw [hk]
      exact {
        whole_ne_nil := List.cons_ne_nil _ _
        whole_digits := fun c hc => hdigits c (List.mem_of_mem_take hc)
        no_leading_zero := fun c rest h => hd (List.cons.inj h).1
        fraction_digits := fun c hc => hdigits c (List.mem_of_mem_drop hc) }
    · exact {
        whole_ne_nil := List.cons_ne_nil _ _
        whole_digits := fun c hc => List.mem_singleton.1 hc ▸ rfl
        no_leading_zero := fun c rest h => List.cons_ne_nil c rest (List.cons.inj h).2.symm
        fraction_digits := fun c hc =>
          (List.mem_append.1 hc).elim isDigit_of_mem_zeros (hdigits c) }

/-- The literal of a decimal number that is not zero is well spelt, since its digits have no leading
zero. -/
theorem decimalLiteral_wellSpelt (l : Layout) (negative : Bool) {d : Decimal} (hd : 0 < d.digits) :
    (l.decimalLiteral negative d).WellSpelt := by
  have hne := Numeral.ofNat_ne_nil d.digits
  have hdigits : ∀ c ∈ Numeral.ofNat d.digits, c.isDigit = true :=
    fun c hc => Numeral.isDigit_of_mem_ofNat hc
  simp only [decimalLiteral]
  split
  · exact l.plainLiteral_wellSpelt negative d.exponent hne hdigits (Numeral.ofNat_ne_zero_cons hd)
  · obtain ⟨c, cs, hcs⟩ := List.exists_cons_of_ne_nil hne
    exact {
      whole_ne_nil := by rw [hcs]; exact List.cons_ne_nil _ _
      whole_digits := fun c hc => hdigits c (List.mem_of_mem_take hc)
      no_leading_zero := fun c rest h => by
        have hlength := congrArg List.length h
        simp only [List.length_take, List.length_cons] at hlength
        omega
      fraction_digits := fun c hc => hdigits c (List.mem_of_mem_drop hc) }

/-- The literal that a finite value is written as is well spelt. -/
theorem literal_wellSpelt (l : Layout) (negative : Bool) (ordinal : Fin ordinalBound) :
    (l.literal negative ordinal).WellSpelt := by
  rw [literal]
  split
  · exact {
      whole_ne_nil := List.cons_ne_nil _ _
      whole_digits := fun c hc => List.mem_singleton.1 hc ▸ rfl
      no_leading_zero := fun c rest h => List.cons_ne_nil c rest (List.cons.inj h).2.symm
      fraction_digits := fun c hc => isDigit_of_mem_wholeFraction hc }
  · next hzero => exact l.decimalLiteral_wellSpelt negative (shortest_digits_pos l.tie hzero)

/-- A layout that keeps the point of whole numbers shows a point or a power of ten always. -/
theorem literal_shows_scale {l : Layout} (hpoint : l.pointZero = true) (hplain : l.plain 0 = true)
    (negative : Bool) (ordinal : Fin ordinalBound) :
    ¬ ((l.literal negative ordinal).fraction = [] ∧ (l.literal negative ordinal).power = 0) := by
  have hplainLiteral {digits : List Char} (hne : digits ≠ []) (exponent : Int) :
      (l.plainLiteral negative digits exponent).fraction ≠ [] := by
    have hpos := List.length_pos_iff.2 hne
    simp only [plainLiteral]
    split
    · simp [wholeFraction, hpoint]
    · split
      · rw [ne_eq, List.drop_eq_nil_iff]
        omega
      · exact List.append_ne_nil_of_right_ne_nil _ hne
  rintro ⟨hfraction, hpower⟩
  rw [literal] at hfraction hpower
  split at hfraction
  · exact hplainLiteral (List.cons_ne_nil _ _) 0 hfraction
  · next hzero =>
    rw [if_neg hzero] at hpower
    simp only [decimalLiteral] at hfraction hpower
    split at hfraction
    · exact hplainLiteral (Numeral.ofNat_ne_nil _) _ hfraction
    · next hscaled =>
      rw [if_neg hscaled] at hpower
      dsimp only at hpower
      exact hscaled (by rw [hpower, hplain])

end MovieCatalog.Binary64.Layout
