import MovieCatalog.Json.Number
import MovieCatalog.Proofs.Binary64.Layout
import MovieCatalog.Proofs.Decimal.Grammar

/-!
# Finite values read back

The text that a layout gives a finite value is read as this value (`Binary64.read?_text`), so every
finite value has a text that means it. A text that means a value holds no blank
(`Binary64.not_isBlank_of_read?`).
-/

namespace MovieCatalog.Binary64

/-- A character that is no capital is its own small letter. -/
theorem toLower_eq_self {c : Char} (h : c.toNat < 65 ∨ 90 < c.toNat) : c.toLower = c := by
  unfold Char.toLower
  split
  · next hcapital =>
    simp only [ge_iff_le, UInt32.le_iff_toNat_le] at hcapital
    have hrange : 65 ≤ c.toNat ∧ c.toNat ≤ 90 := hcapital
    omega
  · rfl

/-- A blank is no capital. -/
theorem toNat_of_isBlank {c : Char} (h : Text.isBlank c = true) : c.toNat < 65 ∨ 90 < c.toNat := by
  simp only [Text.isBlank, Text.blankRanges, List.any_cons, List.any_nil, Bool.or_eq_true,
    Bool.and_eq_true, decide_eq_true_eq, Bool.false_eq_true, or_false] at h
  omega

/-- The texts that name a value. -/
def names : List String := ["inf", "infinity", "nan"]

/-- A text names a value if its small letters do. -/
theorem mem_names_of_named? {negative : Bool} {s : List Char} {x : Binary64}
    (h : named? negative s = some x) : String.ofList (s.map Char.toLower) ∈ names := by
  unfold named? at h
  dsimp only at h
  split at h
  · next hname =>
    rcases hname with hname | hname <;> simp [names, hname]
  · split at h
    · next hname => simp [names, hname]
    · cases h

/-- The values with a name are those that are not finite. -/
theorem isFinite_of_named? {negative : Bool} {s : List Char} {x : Binary64}
    (h : named? negative s = some x) : x.isFinite = false := by
  unfold named? at h
  dsimp only at h
  split at h
  · obtain rfl := Option.some.inj h
    rfl
  · split at h
    · obtain rfl := Option.some.inj h
      rfl
    · cases h

/-- Names begin with a letter. -/
theorem named?_eq_none (negative : Bool) {c : Char} (hc : c.toNat < 65) (cs : List Char) :
    named? negative (c :: cs) = none := by
  have hnames : ∀ name ∈ names, ∀ d, name.toList.head? = some d → ¬ d.toNat < 65 := by
    simp [names]
  cases hx : named? negative (c :: cs) with
  | none => rfl
  | some x =>
    refine absurd hc (hnames _ (mem_names_of_named? hx) c ?_)
    rw [String.toList_ofList, List.map_cons, toLower_eq_self (.inl hc), List.head?_cons]

/-- Digits are characters in front of all letters. -/
theorem toNat_of_isDigit {c : Char} (hc : c.isDigit = true) : c.toNat < 65 := by
  simp only [Char.isDigit, Bool.and_eq_true, decide_eq_true_eq, UInt32.le_iff_toNat_le] at hc
  have hbound : c.toNat ≤ 57 := hc.2
  omega

/-- There are no blanks in a name. -/
theorem not_isBlank_of_named? {negative : Bool} {s : List Char} {x : Binary64}
    (h : named? negative s = some x) : ∀ c ∈ s, Text.isBlank c = false := by
  have hnames : ∀ name ∈ names, ∀ d ∈ name.toList, Text.isBlank d = false := by
    simp [names]
    decide
  intro c hc
  have hlower := hnames _ (mem_names_of_named? h) c.toLower (by
    rw [String.toList_ofList]
    exact List.mem_map_of_mem hc)
  by_contra hblank
  rw [toLower_eq_self (toNat_of_isBlank (by simpa using hblank))] at hlower
  exact hblank hlower

/-- There are no blanks in a text that means a value. -/
theorem not_isBlank_of_read? {s : List Char} {x : Binary64} (h : read? s = some x) :
    ∀ c ∈ s, Text.isBlank c = false := by
  rw [read?] at h
  dsimp only at h
  split at h
  · next hname => exact Decimal.not_isBlank_of_signThen (not_isBlank_of_named? hname)
  · obtain ⟨l, hl, -⟩ := Option.map_eq_some_iff.1 h
    have hread : Decimal.Literal.read? s = some l := hl
    exact (Decimal.Literal.read?_eq_some_iff.1 hread).not_isBlank

/-- A text that spells a literal means the value nearest to the literal. -/
theorem read?_of_spells {s : List Char} {l : Decimal.Literal} (h : Decimal.Literal.Spells s l) :
    read? s = some (ofDecimal l.negative l.magnitude) := by
  obtain ⟨c, rest, hsign, hc, hread⟩ := h.signThen
  have hfirst : c.toNat < 65 := by
    rcases hc with hdigit | rfl
    · exact toNat_of_isDigit hdigit
    · decide
  rw [read?, hsign]
  dsimp only
  rw [named?_eq_none l.negative hfirst, hread]
  rfl

/-- A text that means a finite value spells a literal. -/
theorem exists_spells_of_read? {s : List Char} {x : Binary64} (h : read? s = some x)
    (hx : x.isFinite = true) :
    ∃ l, Decimal.Literal.Spells s l ∧ ofDecimal l.negative l.magnitude = x := by
  have hnamed := h
  rw [read?] at h
  dsimp only at h
  split at h
  · next y hname =>
    -- the names are those of values that are not finite
    obtain rfl := Option.some.inj h
    rw [isFinite_of_named? hname] at hx
    cases hx
  · obtain ⟨l, hl, -⟩ := Option.map_eq_some_iff.1 h
    have hread : Decimal.Literal.read? s = some l := hl
    have hspells := Decimal.Literal.read?_eq_some_iff.1 hread
    rw [read?_of_spells hspells] at hnamed
    exact ⟨l, hspells, Option.some.inj hnamed⟩

/-- The text of a well-spelt literal means the value nearest to the literal. -/
theorem read?_literal {l : Decimal.Literal} (hl : l.WellSpelt) :
    read? l.text = some (ofDecimal l.negative l.magnitude) :=
  read?_of_spells hl.spells

/-- The text that a layout gives a finite value means this value. -/
theorem read?_text {l : Layout} (hplain : l.plain 0 = true) (negative : Bool)
    (ordinal : Fin ordinalBound) :
    read? (l.text negative ordinal) = some (.finite negative ordinal) := by
  rw [Layout.text_eq hplain, read?_literal (l.literal_wellSpelt negative ordinal),
    Layout.literal_negative, Layout.ofDecimal_literal]

/-- The numeral of an integer means the value nearest to this integer. -/
theorem read?_numeral (n : Int) :
    read? (Numeral.ofInt n) = some (ofInt n) := by
  have htext : Numeral.ofInt n
      = (⟨decide (n < 0), Numeral.ofNat n.natAbs, [], 0⟩ : Decimal.Literal).text := by
    cases n with
    | ofNat n => simp [Numeral.ofInt, Decimal.Literal.text, Decimal.Literal.unsignedText]
    | negSucc n => simp [Numeral.ofInt, Decimal.Literal.text, Decimal.Literal.unsignedText]
  have hspelt : (⟨decide (n < 0), Numeral.ofNat n.natAbs, [], 0⟩ : Decimal.Literal).WellSpelt :=
    { whole_ne_nil := Numeral.ofNat_ne_nil _
      whole_digits := fun c hc => Numeral.isDigit_of_mem_ofNat hc
      no_leading_zero := Numeral.ofNat_ne_zero_cons_cons _
      fraction_digits := fun c hc => absurd hc List.not_mem_nil }
  rw [htext, read?_literal hspelt, Decimal.Literal.magnitude]
  dsimp only
  rw [List.append_nil, Numeral.ofDigitChars_ofNat]
  exact congrArg some (ofDecimal_natural _ _)

/-- Every finite value has a text that means it. -/
theorem read?_floatText {x : Binary64} (hx : x.isFinite = true) :
    read? (Json.Number.floatText x) = some x := by
  cases x with
  | finite negative ordinal => exact read?_text (by decide) negative ordinal
  | infinite negative => cases hx
  | nan => cases hx

end MovieCatalog.Binary64
