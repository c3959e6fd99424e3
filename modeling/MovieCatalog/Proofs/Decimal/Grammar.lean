import MovieCatalog.Proofs.Decimal.Digits
import MovieCatalog.Proofs.Json.Grammar
import MovieCatalog.Text.Blank

/-!
# The grammar of literals

Which texts are decimal literals, and which number each of them denotes, is said here without a
reader. The number is a rational one, exact whatever the digits and the power of ten are
(`Decimal.Literal.value`). The signs and the powers of ten are spelt as in JSON; before and behind
the point any digits may stand, leading zeros among them, as long as there is a digit at all.
Reading a text yields the literal that it spells and nothing else
(`Decimal.Literal.read?_eq_some_iff`), and likewise for integers in plain digits
(`Numeral.int?_eq_some_iff`), so a text denotes one number at most
(`Decimal.Literal.Spells.unique`, `Decimal.Literal.Spells.value_eq`). The texts that literals and
integers are given spell them (`Decimal.Literal.WellSpelt.spells`, `Numeral.spells_ofInt`). No blank
stands in any spelling (`Decimal.Literal.Spells.not_isBlank`), so whether blanks are trimmed first
makes no difference.
-/

namespace MovieCatalog

open Json (Digits SpellsSign SpellsPower signedValue)

/-- A digit is no blank. -/
theorem Text.isBlank_of_isDigit {c : Char} (h : c.isDigit = true) : isBlank c = false := by
  simp only [Char.isDigit, Bool.and_eq_true, decide_eq_true_eq, ge_iff_le,
    UInt32.le_iff_toNat_le] at h
  have hdigit : 48 ≤ c.toNat ∧ c.toNat ≤ 57 := h
  clear h
  simp only [isBlank, blankRanges, List.any_cons, List.any_nil, Bool.or_eq_false_iff,
    Bool.and_eq_false_iff, decide_eq_false_iff_not, and_true]
  omega

/-- An integer in plain digits with an optional sign. -/
inductive Numeral.Spells : List Char → Int → Prop
  | signed {sign ds : List Char} {negative : Bool} (hsign : SpellsSign sign negative)
      (hds : Digits ds) : Spells (sign ++ ds) (signedValue negative ds)

namespace Decimal

/-- A point with any digits behind it, or nothing. -/
inductive SpellsFraction : List Char → List Char → Prop
  | absent : SpellsFraction [] []
  | point {ds : List Char} (hds : ∀ c ∈ ds, c.isDigit = true) : SpellsFraction ('.' :: ds) ds

namespace Literal

/-- A literal: a sign, digits with a point somewhere among them or at their ends, and a power of
ten, of which all but one digit may be left out. -/
inductive Spells : List Char → Literal → Prop
  | parts {sign whole point fraction letter : List Char} {negative : Bool} {power : Option Int}
      (hsign : SpellsSign sign negative) (hwhole : ∀ c ∈ whole, c.isDigit = true)
      (hfraction : SpellsFraction point fraction) (hpower : SpellsPower letter power)
      (hdigit : whole ≠ [] ∨ fraction ≠ []) :
      Spells (sign ++ (whole ++ (point ++ letter))) ⟨negative, whole, fraction, power.getD 0⟩

/-- The number that a literal denotes: its digits, of which those behind the point weigh less than
one, times the power of ten. -/
def value (l : Literal) : ℚ :=
  (if l.negative then -1 else 1) * Nat.ofDigitChars 10 (l.whole ++ l.fraction) 0
    * 10 ^ (l.power - l.fraction.length)

end Literal

/-! ## Parts of a literal -/

/-- The digits behind the point, if there is one, and what follows them. -/
def fractionThen : List Char → List Char × List Char
  | '.' :: rest => digitsThen rest
  | rest => ([], rest)

/-- Reading without a sign, by its parts: digits, a fraction, a power. -/
theorem unsigned?_eq (negative : Bool) (s : List Char) :
    unsigned? negative s =
      let whole := digitsThen s
      let fraction := fractionThen whole.2
      if whole.1.isEmpty ∧ fraction.1.isEmpty then none
      else (power? fraction.2).map fun power => ⟨negative, whole.1, fraction.1, power⟩ := by
  unfold unsigned? fractionThen
  rfl

/-- Digits as the reader of numerals asks for them. -/
theorem digits_iff {ds : List Char} :
    Digits ds ↔ ¬ (ds.isEmpty = true ∨ ds.any (!·.isDigit) = true) := by
  constructor
  · intro h
    simpa [h.ne_nil] using h.isDigit
  · intro h
    exact ⟨fun hnil => h (.inl (by simp [hnil])), fun c hc => by
      by_contra hdigit
      exact h (.inr (List.any_eq_true.2 ⟨c, hc, by simpa using hdigit⟩))⟩

/-- Digits are read up to what is no digit. -/
theorem digitsThen_append {ds rest : List Char} (hds : ∀ c ∈ ds, c.isDigit = true)
    (hrest : ∀ c, rest.head? = some c → c.isDigit = false) :
    digitsThen (ds ++ rest) = (ds, rest) := by
  have htake : rest.takeWhile Char.isDigit = [] := by
    cases rest with
    | nil => rfl
    | cons c rest => simp [hrest c rfl]
  have hdrop : rest.dropWhile Char.isDigit = rest := by
    cases rest with
    | nil => rfl
    | cons c rest => simp [hrest c rfl]
  rw [digitsThen, List.takeWhile_append_of_pos hds, List.dropWhile_append_of_pos hds, htake, hdrop,
    List.append_nil]

/-- A sign is read up to what is no sign. -/
theorem signThen_of_spells {sign rest : List Char} {negative : Bool}
    (hsign : SpellsSign sign negative)
    (hrest : ∀ c, rest.head? = some c → c ≠ '-' ∧ c ≠ '+') :
    signThen (sign ++ rest) = (negative, rest) := by
  cases hsign with
  | plus => rfl
  | minus => rfl
  | absent =>
    rw [List.nil_append]
    unfold signThen
    split
    · exact absurd rfl (hrest _ rfl).1
    · exact absurd rfl (hrest _ rfl).2
    · rfl

/-- What is read as a sign spells it. -/
theorem exists_spellsSign (s : List Char) :
    ∃ sign, SpellsSign sign (signThen s).1 ∧ s = sign ++ (signThen s).2 := by
  unfold signThen
  split
  · exact ⟨['-'], .minus, rfl⟩
  · exact ⟨['+'], .plus, rfl⟩
  · exact ⟨[], .absent, rfl⟩

/-- Digits do not begin with a sign. -/
theorem ne_sign_of_isDigit {c : Char} (hc : c.isDigit = true) : c ≠ '-' ∧ c ≠ '+' := by
  constructor <;> rintro rfl <;> cases hc

/-- Digits do not begin with a sign. -/
theorem head?_of_digits {ds : List Char} (hds : Digits ds) :
    ∀ c, ds.head? = some c → c ≠ '-' ∧ c ≠ '+' :=
  fun _ hc => ne_sign_of_isDigit (hds.isDigit _ (List.mem_of_head? hc))

/-- Reading a power of ten yields what is spelt; without one it is zero. -/
theorem power?_eq_some_iff {s : List Char} {n : Int} :
    power? s = some n ↔ ∃ power, SpellsPower s power ∧ n = power.getD 0 := by
  constructor
  · intro h
    cases s with
    | nil => exact ⟨none, .absent, (Option.some.inj h).symm⟩
    | cons c rest =>
      rw [power?] at h
      split at h
      · next hc =>
        obtain ⟨sign, hsign, hrest⟩ := exists_spellsSign rest
        dsimp only at h
        split at h
        · cases h
        · next hdigits =>
          obtain rfl := Option.some.inj h
          have hletter := SpellsPower.letter hc hsign (digits_iff.2 hdigits)
          rw [← hrest] at hletter
          exact ⟨_, hletter, rfl⟩
      · cases h
  · rintro ⟨power, hpower, rfl⟩
    cases hpower with
    | absent => rfl
    | letter hc hsign hds =>
      rw [power?, if_pos hc, signThen_of_spells hsign (head?_of_digits hds)]
      dsimp only
      rw [if_neg (digits_iff.1 hds)]
      rfl

/-- A power of ten begins with its letter. -/
theorem head?_of_spellsPower {letter : List Char} {power : Option Int}
    (h : SpellsPower letter power) : ∀ c, letter.head? = some c → c = 'e' ∨ c = 'E' := by
  intro c hc
  cases h with
  | absent => cases hc
  | letter he => exact (Option.some.inj hc) ▸ he

/-- The digits behind the point are read up to the power of ten. -/
theorem fractionThen_of_spells {point fraction letter : List Char} {power : Option Int}
    (hfraction : SpellsFraction point fraction) (hpower : SpellsPower letter power) :
    fractionThen (point ++ letter) = (fraction, letter) := by
  have hhead := head?_of_spellsPower hpower
  cases hfraction with
  | absent =>
    rw [List.nil_append]
    unfold fractionThen
    split
    · rcases hhead _ rfl with h | h <;> cases h
    · rfl
  | point hds =>
    rw [List.cons_append, fractionThen]
    refine digitsThen_append hds fun c hc => ?_
    rcases hhead c hc with rfl | rfl <;> rfl

/-- What is read as digits are digits, and nothing is lost. -/
theorem isDigit_of_mem_digitsThen {s : List Char} {c : Char} (h : c ∈ (digitsThen s).1) :
    c.isDigit = true :=
  List.mem_takeWhile_imp h

/-- What is taken for digits and what is left make up the text. -/
theorem digitsThen_append_digitsThen (s : List Char) : (digitsThen s).1 ++ (digitsThen s).2 = s :=
  List.takeWhile_append_dropWhile

/-- What is read as the digits behind the point spells them. -/
theorem exists_spellsFraction (s : List Char) :
    ∃ point, SpellsFraction point (fractionThen s).1 ∧ s = point ++ (fractionThen s).2 := by
  unfold fractionThen
  split
  · next rest =>
    exact ⟨'.' :: (digitsThen rest).1, .point fun _ => isDigit_of_mem_digitsThen,
      congrArg ('.' :: ·) (digitsThen_append_digitsThen rest).symm⟩
  · exact ⟨[], .absent, rfl⟩

/-- The digits in front are read up to the point or the power of ten. -/
theorem digitsThen_of_spells {whole point fraction letter : List Char} {power : Option Int}
    (hwhole : ∀ c ∈ whole, c.isDigit = true) (hfraction : SpellsFraction point fraction)
    (hpower : SpellsPower letter power) :
    digitsThen (whole ++ (point ++ letter)) = (whole, point ++ letter) := by
  refine digitsThen_append hwhole fun c hc => ?_
  cases hfraction with
  | absent => rcases head?_of_spellsPower hpower c hc with rfl | rfl <;> rfl
  | point => exact (Option.some.inj hc) ▸ rfl

/-! ## Literals -/

namespace Literal

/-- Behind its sign a literal begins with a digit or a point. -/
theorem exists_cons_of_parts {whole point fraction letter : List Char}
    (hwhole : ∀ c ∈ whole, c.isDigit = true) (hfraction : SpellsFraction point fraction)
    (hdigit : whole ≠ [] ∨ fraction ≠ []) :
    ∃ c rest, whole ++ (point ++ letter) = c :: rest ∧ (c.isDigit = true ∨ c = '.') := by
  cases whole with
  | cons d ds => exact ⟨d, ds ++ (point ++ letter), rfl, .inl (hwhole d List.mem_cons_self)⟩
  | nil =>
    cases hfraction with
    | absent => simp at hdigit
    | point => exact ⟨'.', fraction ++ letter, rfl, .inr rfl⟩

/-- The sign of a literal is read first, and what follows it is read as the literal. -/
theorem Spells.signThen {s : List Char} {l : Literal} (h : Spells s l) :
    ∃ c rest, Decimal.signThen s = (l.negative, c :: rest) ∧ (c.isDigit = true ∨ c = '.') ∧
      unsigned? l.negative (c :: rest) = some l := by
  cases h with
  | parts hsign hwhole hfraction hpower hdigit =>
    obtain ⟨c, rest, htext, hc⟩ := exists_cons_of_parts hwhole hfraction hdigit
    have hhead : ∀ d, (c :: rest).head? = some d → d ≠ '-' ∧ d ≠ '+' := by
      intro d hd
      obtain rfl := Option.some.inj hd
      rcases hc with hc | rfl
      · exact ne_sign_of_isDigit hc
      · decide
    refine ⟨c, rest, htext ▸ signThen_of_spells hsign (htext ▸ hhead), hc, ?_⟩
    rw [← htext, unsigned?_eq, digitsThen_of_spells hwhole hfraction hpower]
    dsimp only
    rw [fractionThen_of_spells hfraction hpower, if_neg (by simpa [← not_and_or] using hdigit),
      power?_eq_some_iff.2 ⟨_, hpower, rfl⟩]
    rfl

/-- A text that spells a literal is read as this literal. -/
theorem Spells.read? {s : List Char} {l : Literal} (h : Spells s l) :
    Literal.read? s = some l := by
  obtain ⟨c, rest, hsign, -, hread⟩ := h.signThen
  rw [Literal.read?, hsign]
  exact hread

/-- Reading a text yields the literal that it spells, and nothing if it spells none. -/
theorem read?_eq_some_iff {s : List Char} {l : Literal} :
    Literal.read? s = some l ↔ Spells s l := by
  refine ⟨fun h => ?_, Spells.read?⟩
  obtain ⟨sign, hsign, hs⟩ := exists_spellsSign s
  rw [Literal.read?] at h
  dsimp only at h
  rw [unsigned?_eq] at h
  dsimp only at h
  split at h
  · cases h
  · next hdigit =>
    obtain ⟨n, hpower, rfl⟩ := Option.map_eq_some_iff.1 h
    obtain ⟨power, hspelt, rfl⟩ := power?_eq_some_iff.1 hpower
    obtain ⟨point, hfraction, hrest⟩ := exists_spellsFraction (digitsThen (signThen s).2).2
    have hsome : (digitsThen (signThen s).2).1 ≠ []
        ∨ (fractionThen (digitsThen (signThen s).2).2).1 ≠ [] := by
      simpa [← not_and_or] using hdigit
    have hspells :=
      Spells.parts hsign (fun _ => isDigit_of_mem_digitsThen) hfraction hspelt hsome
    rwa [← hrest, digitsThen_append_digitsThen, ← hs] at hspells

/-- A text spells one literal at most. -/
theorem Spells.unique {s : List Char} {l m : Literal} (hl : Spells s l) (hm : Spells s m) :
    l = m :=
  Option.some.inj (hl.read?.symm.trans hm.read?)

end Literal

/-! ## Texts of literals -/

/-- A power of ten is spelt with its sign always, and left out if it is zero. -/
theorem spellsPower_powerText (p : Int) :
    SpellsPower (powerText p) (if p = 0 then none else some p) := by
  have hdigits : Digits (Numeral.ofNat p.natAbs) :=
    ⟨Numeral.ofNat_ne_nil _, fun _ hc => Numeral.isDigit_of_mem_ofNat hc⟩
  unfold powerText
  split
  · exact .absent
  · rcases lt_or_ge p 0 with hp | hp
    · have hpower := SpellsPower.letter (.inl rfl) .minus hdigits
      have hvalue : -(p.natAbs : Int) = p := by omega
      rw [signedValue, if_pos rfl, Numeral.ofDigitChars_ofNat, hvalue] at hpower
      rw [if_pos hp]
      exact hpower
    · have hpower := SpellsPower.letter (.inl rfl) .plus hdigits
      have hvalue : (p.natAbs : Int) = p := by omega
      rw [signedValue, if_neg (by decide), Numeral.ofDigitChars_ofNat, hvalue] at hpower
      rw [if_neg (by omega)]
      exact hpower

/-- Digits behind a point spell a fraction, and nothing at all spells an empty one. -/
theorem spellsFraction {fraction : List Char} (h : ∀ c ∈ fraction, c.isDigit = true) :
    SpellsFraction (if fraction = [] then [] else '.' :: fraction) fraction := by
  split
  · next hnone =>
    subst hnone
    exact .absent
  · exact .point h

/-- The text of a well-spelt literal spells it. -/
theorem Literal.WellSpelt.spells {l : Literal} (hl : l.WellSpelt) : Literal.Spells l.text l := by
  obtain ⟨negative, whole, fraction, p⟩ := l
  have hsign : SpellsSign (if negative then ['-'] else []) negative := by
    cases negative with
    | true => exact .minus
    | false => exact .absent
  have hpower : (if p = 0 then none else some p).getD 0 = p := by
    split
    · next hzero => exact hzero.symm
    · rfl
  have hspells := Literal.Spells.parts hsign hl.whole_digits (spellsFraction hl.fraction_digits)
    (spellsPower_powerText p) (.inl hl.whole_ne_nil)
  rw [hpower, ← List.append_assoc whole] at hspells
  exact hspells

/-! ## Blanks -/

/-- A character is a sign at the front or stands in what is behind it. -/
theorem mem_signThen {s : List Char} {c : Char} (h : c ∈ s) :
    c = '-' ∨ c = '+' ∨ c ∈ (signThen s).2 := by
  unfold signThen
  split
  · rcases List.mem_cons.1 h with h | h
    · exact .inl h
    · exact .inr (.inr h)
  · rcases List.mem_cons.1 h with h | h
    · exact .inr (.inl h)
    · exact .inr (.inr h)
  · exact .inr (.inr h)

/-- A sign is no blank, so a text holds none if what follows the sign does not. -/
theorem not_isBlank_of_signThen {s : List Char}
    (h : ∀ c ∈ (signThen s).2, Text.isBlank c = false) : ∀ c ∈ s, Text.isBlank c = false := by
  intro c hc
  rcases mem_signThen hc with rfl | rfl | hc
  · decide
  · decide
  · exact h c hc

theorem not_isBlank_of_spellsSign {sign : List Char} {negative : Bool}
    (h : SpellsSign sign negative) : ∀ c ∈ sign, Text.isBlank c = false := by
  cases h with
  | absent => exact List.forall_mem_nil _
  | plus => exact List.forall_mem_singleton.2 (by decide)
  | minus => exact List.forall_mem_singleton.2 (by decide)

theorem not_isBlank_of_digits {ds : List Char} (h : ∀ c ∈ ds, c.isDigit = true) :
    ∀ c ∈ ds, Text.isBlank c = false :=
  fun c hc => Text.isBlank_of_isDigit (h c hc)

/-- There are no blanks in a literal. -/
theorem Literal.Spells.not_isBlank {s : List Char} {l : Literal} (h : Literal.Spells s l) :
    ∀ c ∈ s, Text.isBlank c = false := by
  cases h with
  | parts hsign hwhole hfraction hpower =>
    simp only [List.forall_mem_append]
    refine ⟨not_isBlank_of_spellsSign hsign, not_isBlank_of_digits hwhole, ?_, ?_⟩
    · cases hfraction with
      | absent => exact List.forall_mem_nil _
      | point hds => exact List.forall_mem_cons.2 ⟨by decide, not_isBlank_of_digits hds⟩
    · cases hpower with
      | absent => exact List.forall_mem_nil _
      | letter hletter hsign hds =>
        refine List.forall_mem_cons.2 ⟨?_, List.forall_mem_append.2
          ⟨not_isBlank_of_spellsSign hsign, not_isBlank_of_digits hds.isDigit⟩⟩
        rcases hletter with rfl | rfl <;> decide

end Decimal

/-! ## Integers in plain digits -/

namespace Numeral

/-- Reading a text in plain digits yields the integer that it spells, and nothing if it spells
none. -/
theorem int?_eq_some_iff {s : List Char} {n : Int} : int? s = some n ↔ Spells s n := by
  constructor
  · intro h
    obtain ⟨sign, hsign, hs⟩ := Decimal.exists_spellsSign s
    rw [int?] at h
    dsimp only at h
    split at h
    · cases h
    · next hdigits =>
      obtain rfl := Option.some.inj h
      have hspells := Spells.signed hsign (Decimal.digits_iff.2 hdigits)
      rwa [← hs] at hspells
  · rintro ⟨hsign, hds⟩
    rw [int?, Decimal.signThen_of_spells hsign (Decimal.head?_of_digits hds)]
    dsimp only
    rw [if_neg (Decimal.digits_iff.1 hds)]
    rfl

/-- The numeral of an integer spells it. -/
theorem spells_ofInt (n : Int) : Spells (ofInt n) n := by
  have hdigits (k : Nat) : Digits (ofNat k) :=
    ⟨ofNat_ne_nil k, fun _ hc => isDigit_of_mem_ofNat hc⟩
  cases n with
  | ofNat n =>
    have hspells := Spells.signed .absent (hdigits n)
    rw [signedValue, if_neg (by decide), ofDigitChars_ofNat] at hspells
    exact hspells
  | negSucc n =>
    have hspells := Spells.signed .minus (hdigits (n + 1))
    rw [signedValue, if_pos rfl, ofDigitChars_ofNat] at hspells
    exact hspells

/-- The numeral of an integer is read as the integer. -/
theorem int?_ofInt (n : Int) : int? (ofInt n) = some n :=
  int?_eq_some_iff.2 (spells_ofInt n)

/-- Plain digits are a literal too, and denote the same number. -/
theorem Spells.literal {s : List Char} {n : Int} (h : Spells s n) :
    ∃ l, Decimal.Literal.Spells s l ∧ l.value = n := by
  cases h with
  | @signed sign ds negative hsign hds =>
    refine ⟨⟨negative, ds, [], 0⟩, ?_, ?_⟩
    · have hparts := Decimal.Literal.Spells.parts hsign hds.isDigit Decimal.SpellsFraction.absent
        Json.SpellsPower.absent (.inl hds.ne_nil)
      simpa using hparts
    · cases negative <;> simp [Decimal.Literal.value, signedValue]

/-- There are no blanks in the numeral of an integer. -/
theorem not_isBlank_ofInt (n : Int) : ∀ c ∈ ofInt n, Text.isBlank c = false := by
  obtain ⟨l, hl, -⟩ := (spells_ofInt n).literal
  exact hl.not_isBlank

end Numeral

/-- A text in plain digits denotes the integer that it spells, also as a literal. -/
theorem Decimal.Literal.Spells.value_eq {s : List Char} {l : Literal} {n : Int} (hl : Spells s l)
    (hn : Numeral.Spells s n) : l.value = n := by
  obtain ⟨m, hm, hvalue⟩ := hn.literal
  rw [hl.unique hm, hvalue]

end MovieCatalog
