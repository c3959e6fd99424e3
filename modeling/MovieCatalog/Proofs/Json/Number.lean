import MovieCatalog.Proofs.Binary64.Layout
import MovieCatalog.Proofs.Decimal.Estimate

/-!
# Numbers read back

The text of a number is the text of a literal (`Number.text_eq`), and the grammar allows it as the
lexeme of this literal (`spellsNumber_text`). The number is legible if this lexeme means it again.
Integers are legible (`Number.legible_integer`). A floating-point number is written as a literal
that no other value is nearer to, but a literal is read by estimate: so such a number need not be
legible, but is if its literal is short (`Number.legible_of_short`).
-/

namespace MovieCatalog.Json

open Decimal (Literal powerText spellsPower_powerText)

/-- The lexeme of a literal. Without a point and a power of ten it is a whole number. -/
def NumberLexeme.ofLiteral (l : Literal) : NumberLexeme :=
  if l.fraction = [] ∧ l.power = 0 then .whole l.negative l.whole else .scaled l

/-! ## Spelling -/

/-- Digits behind a point spell a fraction, and nothing at all spells an empty one. -/
theorem spellsFraction {fraction : List Char} (h : ∀ c ∈ fraction, c.isDigit = true) :
    SpellsFraction (if fraction = [] then [] else '.' :: fraction) fraction := by
  split
  · next hnone =>
    subst hnone
    exact .absent
  · next hne => exact .point ⟨hne, h⟩

/-- The parts of a literal make its lexeme. -/
theorem NumberLexeme.ofParts_eq_ofLiteral (l : Literal) :
    ofParts l.negative l.whole l.fraction (if l.power = 0 then none else some l.power)
      = ofLiteral l := by
  obtain ⟨negative, whole, fraction, p⟩ := l
  by_cases hp : p = 0
  · subst hp
    simp [ofParts, ofLiteral]
  · simp [ofParts, ofLiteral, hp]

/-- The text of a well-spelt literal is a number in the grammar. -/
theorem spellsNumber_text {l : Literal} (hl : l.WellSpelt) :
    SpellsNumber l.text (.ofLiteral l) := by
  have hwhole : WholePart l.whole := ⟨⟨hl.whole_ne_nil, hl.whole_digits⟩, hl.no_leading_zero⟩
  have hunsigned := @SpellsUnsigned.parts l.negative _ _ _ _ _ hwhole
    (spellsFraction hl.fraction_digits) (spellsPower_powerText l.power)
  rw [NumberLexeme.ofParts_eq_ofLiteral, ← List.append_assoc] at hunsigned
  obtain ⟨negative, whole, fraction, p⟩ := l
  cases negative with
  | true => exact .minus hunsigned
  | false => exact .plain hunsigned

/-! ## Meaning -/

namespace Number

/-- The literal that a number is written as. -/
def literal : Number → Literal
  | .integer n _ => ⟨n < 0, Numeral.ofNat n.natAbs, [], 0⟩
  | .float (.finite negative ordinal) _ => floatLayout.literal negative ordinal
  | .float (.infinite _) h | .float .nan h => nomatch h

/-- A number is written as its literal. -/
theorem text_eq (n : Number) : n.text = n.literal.text := by
  cases n with
  | integer n held =>
    cases n with
    | ofNat n => simp [text, literal, Literal.text, Literal.unsignedText, Numeral.ofInt]
    | negSucc n => simp [text, literal, Literal.text, Literal.unsignedText, Numeral.ofInt]
  | float x hfinite =>
    cases x with
    | finite negative ordinal => exact Binary64.Layout.text_eq (by decide) negative ordinal
    | infinite negative => cases hfinite
    | nan => cases hfinite

/-- The literal as which a number is written is well spelt. -/
theorem literal_wellSpelt (n : Number) : n.literal.WellSpelt := by
  cases n with
  | integer n held =>
    exact {
      whole_ne_nil := Numeral.ofNat_ne_nil _
      whole_digits := fun c hc => Numeral.isDigit_of_mem_ofNat hc
      no_leading_zero := Numeral.ofNat_ne_zero_cons_cons _
      fraction_digits := fun c hc => nomatch hc }
  | float x hfinite =>
    cases x with
    | finite negative ordinal => exact floatLayout.literal_wellSpelt negative ordinal
    | infinite negative => cases hfinite
    | nan => cases hfinite

/-- An integer within the bounds is held as it is. -/
theorem ofInt?_of_held {n : Int} (held : leastInteger ≤ n ∧ n < integerBound) :
    ofInt? n = some (.integer n held) :=
  dif_pos held

/-- A finite value is held as it is. -/
theorem ofBinary64?_of_finite {x : Binary64} (h : x.isFinite = true) :
    ofBinary64? x = some (.float x h) :=
  dif_pos h

/-- The number is read back from its own literal. -/
def Legible (n : Number) : Prop :=
  (NumberLexeme.ofLiteral n.literal).read = .ok n

instance (n : Number) : Decidable n.Legible :=
  inferInstanceAs (Decidable (_ = _))

/-- An integer is legible. -/
theorem legible_integer (n : Int) (held : leastInteger ≤ n ∧ n < integerBound) :
    (integer n held).Legible := by
  have hnumeral := Numeral.ofDigitChars_ofNat n.natAbs
  rw [Legible, literal, NumberLexeme.ofLiteral, if_pos ⟨rfl, rfl⟩, NumberLexeme.read]
  by_cases hn : n < 0
  · have hne : n.natAbs ≠ 0 := by omega
    have hvalue : -(n.natAbs : Int) = n := by omega
    simp only [hnumeral, hn, decide_true, if_true, hne, if_false, hvalue, ofInt?_of_held held]
  · have hvalue : (n.natAbs : Int) = n := by omega
    simp only [hnumeral, hn, decide_false, Bool.false_eq_true, if_false, hvalue,
      ofInt?_of_held held]

/-- A floating-point number is legible if it is written with few digits, which make up a number up
to `2^53`, and a small power of ten, up to `10^22` or down to `10^-22`. -/
theorem legible_of_short {x : Binary64} {hx : x.isFinite = true}
    (hdigits : (float x hx).literal.magnitude.digits ≤ 2 * binade)
    (hlow : -22 ≤ (float x hx).literal.magnitude.exponent)
    (hhigh : (float x hx).literal.magnitude.exponent ≤ 22) : (float x hx).Legible := by
  cases x with
  | finite negative ordinal =>
    have hscale := Binary64.Layout.literal_shows_scale (l := floatLayout) rfl (by decide) negative
      ordinal
    have hvalue := floatLayout.ofDecimal_literal negative ordinal
    rw [literal] at hdigits hlow hhigh
    rw [Legible, literal, NumberLexeme.ofLiteral, if_neg hscale, NumberLexeme.read,
      NumberLexeme.readFloat, Literal.estimate_of_short hdigits hlow hhigh,
      Binary64.Layout.literal_negative, hvalue, ofBinary64?_of_finite hx]
  | infinite negative => cases hx
  | nan => cases hx

/-- A number that is written with sixteen digits may be read as its neighbour. -/
example :
    let x := Binary64.ofDecimal false ⟨9385958677423489, -16⟩
    let y := Binary64.ofDecimal false ⟨9385958677423488, -16⟩
    Number.text (.float x (by decide +kernel)) = "0.9385958677423489".toList ∧
      (NumberLexeme.ofLiteral (literal (.float x (by decide +kernel)))).read
        = .ok (.float y (by decide +kernel)) ∧
      x ≠ y := by
  decide +kernel

/-- Every number is near to a finite floating-point value. -/
theorem isFinite_toBinary64 (n : Number) : n.toBinary64.isFinite = true := by
  cases n with
  | integer n held =>
    refine Binary64.isFinite_ofInt ?_
    have hhalf : Word.half64 ≤ Word.size64 := by decide
    simp only [leastInteger, integerBound] at held
    omega
  | float x hfinite => exact hfinite

end Number

end MovieCatalog.Json
