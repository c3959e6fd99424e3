import MovieCatalog.Proofs.Json.Number
import Mathlib.Tactic.IntervalCases

/-!
# Strings read back

A character of a string is written as itself, with a letter escape or by its number, and the grammar
allows each of the three as one unit (`spellsUnit_escapedChar`). So the text of a string is spelt as
the units of its characters (`spellsString_stringText`), and these mean the string again
(`StringLexeme.read_ofString`).
-/

namespace MovieCatalog.Json

/-- The control characters that have an escape with a letter. -/
def letterEscaped : List Char := ['\x08', '\x0c', '\n', '\r', '\t']

/-- The unit that a character is written as: control characters without a letter are written by
their numbers. -/
def StringUnit.ofChar (c : Char) : StringUnit :=
  if c.toNat < 0x20 ∧ c ∉ letterEscaped then .code c.toNat else .char c

/-- The lexeme that a string is written as. -/
def StringLexeme.ofString (s : String) : StringLexeme :=
  ⟨s.toList.map .ofChar, .closed⟩

/-! ## Spelling -/

/-- A control character, however it is written, is spelt as its unit. -/
theorem spellsUnit_control (n : Nat) (hn : n < 0x20) :
    SpellsUnit (escapedChar (Char.ofNat n)) (.ofChar (Char.ofNat n)) := by
  interval_cases n <;> first | exact .letter rfl | exact .code rfl

/-- A character that needs no escape is written as itself. -/
theorem escapedChar_plain {c : Char} (hquote : c ≠ '"') (hback : c ≠ '\\')
    (hc : ¬ c.toNat < 0x20) : escapedChar c = [c] := by
  have hc' : ¬ c.toNat < 0x10 := by omega
  unfold escapedChar
  split
  · exact absurd rfl hquote
  · exact absurd rfl hback
  -- the five letters stand for control characters
  iterate 5 exact absurd (by decide) hc
  rw [if_neg hc', if_neg hc]

/-- A character is spelt as one unit. -/
theorem spellsUnit_escapedChar (c : Char) : SpellsUnit (escapedChar c) (.ofChar c) := by
  by_cases hc : c.toNat < 0x20
  · have h := spellsUnit_control c.toNat hc
    rwa [Char.ofNat_toNat] at h
  · have hunit : StringUnit.ofChar c = .char c := if_neg fun h => hc h.1
    by_cases hquote : c = '"'
    · subst hquote
      exact .letter rfl
    · by_cases hback : c = '\\'
      · subst hback
        exact .letter rfl
      · rw [escapedChar_plain hquote hback hc, hunit]
        exact .plain hquote hback hc

/-- Characters are spelt one by one, each of them escaped where it has to be. -/
theorem spellsUnits_flatMap (cs : List Char) :
    SpellsUnits (cs.flatMap escapedChar) (cs.map .ofChar) := by
  induction cs with
  | nil => exact .nil
  | cons c cs ih =>
    rw [List.flatMap_cons]
    exact .cons (spellsUnit_escapedChar c) ih

/-- The text of a string is spelt as its lexeme. -/
theorem spellsString_stringText (s : String) : SpellsString (stringText s) (.ofString s) := by
  exact .quoted (spellsUnits_flatMap s.toList)

/-! ## Meaning -/

namespace StringLexeme

/-- The units of characters mean these characters. -/
theorem characters_ofChar (cs done : List Char) :
    characters .closed done (cs.map .ofChar) = .ok (done.reverse ++ cs) := by
  induction cs generalizing done with
  | nil => simp [characters, StringEnd.fault?]
  | cons c cs ih =>
    have hstep : characters .closed done (.ofChar c :: cs.map .ofChar)
        = characters .closed (c :: done) (cs.map .ofChar) := by
      by_cases hc : c.toNat < 0x20 ∧ c ∉ letterEscaped
      · -- a number below the surrogates stands for itself
        have htrailing : isTrailing c.toNat = false := by
          simp only [isTrailing, decide_eq_false_iff_not]
          omega
        have hleading : isLeading c.toNat = false := by
          simp only [isLeading, decide_eq_false_iff_not]
          omega
        rw [StringUnit.ofChar, if_pos hc]
        rw [characters.eq_def]
        simp [htrailing, hleading]
      · rw [StringUnit.ofChar, if_neg hc, characters]
    rw [List.map_cons, hstep, ih]
    simp

/-- No character is written as stray octets. -/
theorem stray_notMem_ofString (s : String) : StringUnit.stray ∉ (ofString s).units := by
  intro h
  obtain ⟨c, -, hc⟩ := List.mem_map.1 h
  unfold StringUnit.ofChar at hc
  split at hc <;> cases hc

/-- The lexeme of a string means this string. -/
theorem read_ofString (s : String) : (ofString s).read = .ok s := by
  have hcharacters := characters_ofChar s.toList []
  have hstray := stray_notMem_ofString s
  simp only [read, ofString] at hstray ⊢
  rw [hcharacters]
  simp [hstray, bind, Except.bind, pure, Except.pure]

end StringLexeme

end MovieCatalog.Json
