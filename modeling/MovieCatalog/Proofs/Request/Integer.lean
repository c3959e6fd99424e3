import MovieCatalog.Proofs.Binary64.Exact
import MovieCatalog.Proofs.Request.Parameter

/-!
# Integers as parameters

The year, the page and its size are integers. A value in plain digits is taken as it is written
(`Parameter.integer?_of_plain`); any other value is read as a number in floating point and taken if
this number is an integer that is not too large (`Parameter.integer?_of_not_plain`). The bound is
`2^63`, since the greatest signed integer of 64 bits is no value (`Parameter.integer?_greatest`), so
that nothing is cut off when the number is converted (`Parameter.ofNumber?_eq_some_iff`). So every
spelling of an integer up to `2^53` is taken as this integer (`Request.takes_every_spelling`). What
is taken is as near to what is written as a number in floating point can be, but it is what is
written only if this is held exactly (`Request.accepted_eq_written_iff`): a fraction that is lost in
rounding goes unnoticed (`Request.accepts_fraction`).
-/

namespace MovieCatalog

namespace Parameter

open Decimal (Literal)

/-- The value is a signed integer of 64 bits in plain digits, between blanks. -/
structure Plain (value : String) (n : Int) : Prop where
  spells : Numeral.Spells (Text.trim value.toList) n
  low : -(Word.half64 : Int) ≤ n
  high : n < Word.half64

/-- What is read in plain digits is what is written in plain digits. -/
theorem plain_iff {value : String} {n : Int} :
    (Numeral.int? (Text.trim value.toList)).filter
        (fun n => decide (-(Word.half64 : Int) ≤ n ∧ n < Word.half64)) = some n
      ↔ Plain value n := by
  rw [Option.filter_eq_some_iff, Numeral.int?_eq_some_iff, decide_eq_true_eq]
  exact ⟨fun h => ⟨h.1, h.2.1, h.2.2⟩, fun h => ⟨h.spells, h.low, h.high⟩⟩

/-- In floating point, the greatest signed integer of 64 bits is the power of two after it. -/
theorem integer?_greatest : (Binary64.ofInt (Word.half64 - 1)).integer? = some (Word.half64 : Int) := by
  decide +kernel

/-- A number is taken for an integer if it is this integer and not too large. -/
theorem ofNumber?_eq_some_iff {x : Binary64} {n : Int} :
    (ofNumber? x).map (·.toInt) = some n ↔ x.toRat? = some (n : ℚ) ∧ n.natAbs < Word.half64 := by
  rw [ofNumber?, x.map_toInt_wholeBelow? integer?_greatest (Nat.le_refl _),
    Option.filter_eq_some_iff, Binary64.integer?_eq_some_iff, decide_eq_true_eq]

/-- The number in floating point as which a value is read is an integer. -/
theorem bind_ofNumber?_eq_some_iff {value : String} {n : Int} :
    ((number? value).bind ofNumber?).map (·.toInt) = some n ↔
      ∃ x, Binary64.read? (Text.trim value.toList) = some x ∧ x.toRat? = some (n : ℚ) ∧
        n.natAbs < Word.half64 := by
  simp only [Option.map_bind, Option.bind_eq_some_iff, Function.comp_apply, ofNumber?_eq_some_iff,
    number?, Option.filter_eq_some_iff]
  constructor
  · rintro ⟨x, ⟨hread, -⟩, hx⟩
    exact ⟨x, hread, hx⟩
  · rintro ⟨x, hread, hx⟩
    exact ⟨x, ⟨hread, Binary64.isFinite_of_toRat? hx.1⟩, hx⟩

/-- A value in plain digits is taken as it is written. -/
theorem integer?_of_plain {value : String} {n : Int} (h : Plain value n) :
    (integer? value).map (·.toInt) = some n := by
  rw [integer?, plain_iff.2 h]
  exact congrArg some (Word.toInt_ofInt h.low h.high)

/-- Any other value is taken if it is read as an integer in floating point, of a magnitude below
`2^63`. -/
theorem integer?_of_not_plain {value : String} (h : ∀ n, ¬ Plain value n) {n : Int} :
    (integer? value).map (·.toInt) = some n ↔
      ∃ x, Binary64.read? (Text.trim value.toList) = some x ∧ x.toRat? = some (n : ℚ) ∧
        n.natAbs < Word.half64 := by
  have hplain : (Numeral.int? (Text.trim value.toList)).filter
      (fun n => decide (-(Word.half64 : Int) ≤ n ∧ n < Word.half64)) = none := by
    rw [Option.eq_none_iff_forall_ne_some]
    exact fun n hn => h n (plain_iff.1 hn)
  rw [← bind_ofNumber?_eq_some_iff, integer?, hplain]
  rfl

/-- What is nearest to an integer of more than 64 bits has more than 64 bits too, since the first
integers beyond them are values. -/
theorem half64_le_of_nearest {m n : Int} (hm : ¬ (-(Word.half64 : Int) ≤ m ∧ m < Word.half64))
    (h : ∀ (y : Binary64) (q : ℚ), y.toRat? = some q → |(n : ℚ) - m| ≤ |q - m|) :
    Word.half64 ≤ n.natAbs := by
  have hword : twoTo 63 = Word.half64 := by decide +kernel
  obtain ⟨y, hy⟩ : ∃ y : Binary64, y.toRat? = some ((1 * twoTo 63 : Int) : ℚ) :=
    Binary64.exists_toRat?_eq (by decide) (by decide)
  obtain ⟨z, hz⟩ : ∃ z : Binary64, z.toRat? = some ((-1 * twoTo 63 : Int) : ℚ) :=
    Binary64.exists_toRat?_eq (by decide) (by decide)
  rw [hword] at hy hz
  have habove : |n - m| ≤ |1 * (Word.half64 : Int) - m| := by exact_mod_cast h y _ hy
  have hbelow : |n - m| ≤ |-1 * (Word.half64 : Int) - m| := by exact_mod_cast h z _ hz
  rw [← Int.natCast_natAbs, ← Int.natCast_natAbs] at habove hbelow
  omega

/-- A count is an integer that is not negative. -/
theorem toNat_natural? (value : String) :
    (natural? value).map (fun k => (k.toNat : Int))
      = ((integer? value).map (·.toInt)).filter (0 ≤ ·) := by
  rw [natural?]
  cases integer? value with
  | none => rfl
  | some k =>
    by_cases hk : 0 ≤ k
    · have hint : 0 ≤ k.toInt := Int64.le_iff_toInt_le.1 hk
      have hnat : ((k.toUInt64.toNat : Nat) : Int) = k.toInt := by
        rw [Int64.toNat_toUInt64_of_le hk, ← Int64.toNat_toInt, Int.toNat_of_nonneg hint]
      simp only [Option.map_some, Option.filter_some, hk, hint, decide_true, if_true, hnat]
    · have hint : ¬ 0 ≤ k.toInt := fun h => hk (Int64.le_iff_toInt_le.2 h)
      simp [Option.filter_some, hk, hint]

end Parameter

namespace Request

open Decimal (Literal)
open Parameter (Plain)

/-- What is taken from a value: an integer or nothing for a year, and the same for a page and a limit
unless the integer is negative. -/
structure Takes (value : String) (n : Option Int) : Prop where
  year : (ofForm [(Parameter.year.name, value)]).year.map (·.toInt) = n
  page : (ofForm [(Parameter.page.name, value)]).page.map (fun k => (k.toNat : Int))
    = n.filter (0 ≤ ·)
  limit : (ofForm [(Parameter.limit.name, value)]).limit.map (fun k => (k.toNat : Int))
    = n.filter (0 ≤ ·)

/-- The year, the page and the limit are read alike. -/
theorem takes_iff {value : String} {n : Option Int} :
    Takes value n ↔ (Parameter.integer? value).map (·.toInt) = n := by
  have hyear : (ofForm [(Parameter.year.name, value)]).year = Parameter.integer? value := by
    rw [Parameter.ofForm_single, assign]
  have hpage : (ofForm [(Parameter.page.name, value)]).page = Parameter.natural? value := by
    rw [Parameter.ofForm_single, assign]
  have hlimit : (ofForm [(Parameter.limit.name, value)]).limit = Parameter.natural? value := by
    rw [Parameter.ofForm_single, assign]
  refine ⟨fun h => hyear ▸ h.year, ?_⟩
  rintro rfl
  exact ⟨congrArg _ hyear, hpage ▸ Parameter.toNat_natural? value,
    hlimit ▸ Parameter.toNat_natural? value⟩

/-- Integers are taken whatever their spelling is, and none is changed on the way. A literal that
denotes an integer up to `2^53` is taken as this integer, and so is every integer of 64 bits in plain
digits. A value that is no such integer in plain digits is taken exactly if it is read, in floating
point, as an integer whose magnitude is below `2^63`, and then as just this integer; what is not a
number, infinite, a fraction or beyond this bound is taken as nothing. -/
theorem takes_every_spelling (value : String) :
    (∀ l n, Literal.Spells (Text.trim value.toList) l → l.value = ((n : Int) : ℚ) →
      n.natAbs ≤ twoTo 53 → Takes value (some n)) ∧
    (∀ n, Plain value n → Takes value (some n)) ∧
    ((∀ n, ¬ Plain value n) →
      (∀ n, Takes value (some n) ↔
        ∃ x, Binary64.read? (Text.trim value.toList) = some x ∧ x.toRat? = some ((n : Int) : ℚ) ∧
          n.natAbs < Word.half64) ∧
      (Takes value none ↔
        ∀ x n, Binary64.read? (Text.trim value.toList) = some x → x.toRat? = some ((n : Int) : ℚ) →
          Word.half64 ≤ n.natAbs)) := by
  refine ⟨fun l n hl hvalue hbound => ?_, fun n h => ?_, fun h => ⟨fun n => ?_, ?_⟩⟩
  · rw [takes_iff]
    by_cases hplain : ∃ m, Plain value m
    · obtain ⟨m, hm⟩ := hplain
      obtain rfl : m = n := by
        have heq := hl.value_eq hm.spells
        exact_mod_cast heq.symm.trans hvalue
      exact Parameter.integer?_of_plain hm
    · have hhalf : twoTo 53 < Word.half64 := by decide +kernel
      have htwice : 2 * binade = twoTo 53 := by decide +kernel
      obtain ⟨x, hx⟩ := Binary64.exists_toRat?_eq_int (htwice ▸ hbound)
      have hexact := Literal.toRat?_of_exact (hvalue ▸ hx)
      exact (Parameter.integer?_of_not_plain (not_exists.1 hplain)).2
        ⟨_, Binary64.read?_of_spells hl, hvalue ▸ hexact, by omega⟩
  · exact takes_iff.2 (Parameter.integer?_of_plain h)
  · rw [takes_iff, Parameter.integer?_of_not_plain h]
  · rw [takes_iff, Option.eq_none_iff_forall_ne_some]
    simp only [ne_eq, Parameter.integer?_of_not_plain h, not_exists, not_and, Nat.not_lt]
    exact ⟨fun hnone x n hread hx => hnone n x hread hx, fun hlarge n x hread hx => hlarge x n hread hx⟩

/-- A negative integer with zeros on both sides and a power of ten, between blanks; the least integer
of 64 bits; and the integer behind the greatest one, which is taken neither in plain digits nor in
floating point. -/
theorem takes_every_spelling_forms :
    let tens : Literal := ⟨true, "00002014".toList, "500".toList, 1⟩
    (Literal.Spells (Text.trim " -00002014.500e+1\t".toList) tens ∧
      tens.value = ((-20145 : Int) : ℚ) ∧ (-20145 : Int).natAbs ≤ twoTo 53) ∧
      Takes " -00002014.500e+1\t" (some (-20145)) ∧
      (ofForm [("page", " -00002014.500e+1\t")]).page = none ∧
      Plain "-9223372036854775808" (-9223372036854775808) ∧
      Takes "-9223372036854775808" (some (-9223372036854775808)) ∧
      (∀ n, ¬ Plain "9223372036854775808" n) ∧
      Takes "9223372036854775808" none := by
  intro tens
  have hspells : Literal.Spells (Text.trim " -00002014.500e+1\t".toList) tens :=
    Literal.read?_eq_some_iff.1 (by decide +kernel)
  have hdigits : Nat.ofDigitChars 10 (tens.whole ++ tens.fraction) 0 = 2014500 := by decide +kernel
  have hlength : tens.fraction.length = 3 := by decide
  have hvalue : tens.value = ((-20145 : Int) : ℚ) := by
    rw [Literal.value, hdigits, hlength]
    norm_num [tens]
  have hbound : (-20145 : Int).natAbs ≤ twoTo 53 := by decide +kernel
  have htens := (takes_every_spelling _).1 tens _ hspells hvalue hbound
  have hleast : Plain "-9223372036854775808" (-9223372036854775808) :=
    ⟨Numeral.int?_eq_some_iff.1 (by decide +kernel), by decide, by decide⟩
  have hnot : ∀ n, ¬ Plain "9223372036854775808" n := by
    intro n h
    have hread : Numeral.int? (Text.trim "9223372036854775808".toList) = some 9223372036854775808 := by
      decide +kernel
    obtain rfl := Option.some.inj (hread.symm.trans (Numeral.int?_eq_some_iff.2 h.spells))
    exact absurd h.high (by decide)
  refine ⟨⟨hspells, hvalue, hbound⟩, htens, Option.map_eq_none_iff.1 htens.page, hleast,
    (takes_every_spelling _).2.1 _ hleast, hnot, ((takes_every_spelling _).2.2 hnot).2.2 ?_⟩
  intro x n hread hx
  have hnearest : Binary64.read? (Text.trim "9223372036854775808".toList)
      = some (.ofInt 9223372036854775808) := by
    decide +kernel
  have hinteger : (Binary64.ofInt 9223372036854775808).integer? = some 9223372036854775808 := by
    decide +kernel
  obtain rfl := Option.some.inj (hnearest.symm.trans hread)
  obtain rfl := Option.some.inj (hinteger.symm.trans (Binary64.integer?_eq_some_iff.2 hx))
  decide

/-- An integer is what a request has as its year, page or limit if it is made of this one value. -/
inductive Accepts (value : String) (n : Int) : Prop
  | year (h : (ofForm [(Parameter.year.name, value)]).year.map (·.toInt) = some n)
  | page (h : (ofForm [(Parameter.page.name, value)]).page.map (fun k => (k.toNat : Int)) = some n)
  | limit (h : (ofForm [(Parameter.limit.name, value)]).limit.map (fun k => (k.toNat : Int)) = some n)

/-- What is accepted is taken from the value. -/
theorem Accepts.takes {value : String} {n : Int} (h : Accepts value n) : Takes value (some n) := by
  have htakes : Takes value _ := takes_iff.2 rfl
  cases h with
  | year h => exact takes_iff.2 (htakes.year.symm.trans h)
  | page h => exact takes_iff.2 (Option.filter_eq_some_iff.1 (htakes.page.symm.trans h)).1
  | limit h => exact takes_iff.2 (Option.filter_eq_some_iff.1 (htakes.limit.symm.trans h)).1

/-- The integer that is accepted is as near to the number that is written as any number in floating
point is. It is the number that is written exactly if this is written in plain digits or is a number
in floating point itself. -/
theorem accepted_eq_written_iff {value : String} {n : Int} (h : Accepts value n) :
    ∃ l, Literal.Spells (Text.trim value.toList) l ∧
      (∀ (y : Binary64) (q : ℚ), y.toRat? = some q → |n - l.value| ≤ |q - l.value|) ∧
      (l.value = n ↔ (∃ m, Numeral.Spells (Text.trim value.toList) m) ∨
        ∃ x : Binary64, x.toRat? = some l.value) := by
  have htaken := takes_iff.1 h.takes
  by_cases hplain : ∃ m, Plain value m
  · obtain ⟨m, hm⟩ := hplain
    obtain rfl : m = n := Option.some.inj ((Parameter.integer?_of_plain hm).symm.trans htaken)
    obtain ⟨l, hl, hvalue⟩ := hm.spells.literal
    refine ⟨l, hl, fun y q _ => ?_, iff_of_true hvalue (.inl ⟨m, hm.spells⟩)⟩
    rw [hvalue, sub_self, abs_zero]
    exact abs_nonneg _
  · obtain ⟨x, hread, hx, hbound⟩ :=
      (Parameter.integer?_of_not_plain (not_exists.1 hplain)).1 htaken
    obtain ⟨l, hl, rfl⟩ := Binary64.exists_spells_of_read? hread (Binary64.isFinite_of_toRat? hx)
    refine ⟨l, hl, fun y q hy => Literal.abs_sub_le hx hy, fun hvalue => .inr ⟨_, hvalue ▸ hx⟩, ?_⟩
    rintro (⟨m, hm⟩ | ⟨y, hy⟩)
    · -- plain digits that are not taken as such have too many bits for what is nearest to them
      have hvalue := hl.value_eq hm
      have hlarge : Word.half64 ≤ n.natAbs :=
        Parameter.half64_le_of_nearest (fun hm' => hplain ⟨m, hm, hm'.1, hm'.2⟩)
          fun y q hy => hvalue ▸ Literal.abs_sub_le hx hy
      omega
    · exact Option.some.inj ((Literal.toRat?_of_exact hy).symm.trans hx)

/-- A limit with a power of ten that takes a zero back. -/
theorem accepted_eq_written_iff_tenth :
    let tenth : Literal := ⟨false, "20140".toList, [], -1⟩
    Accepts "20140e-1" 2014 ∧ Literal.Spells (Text.trim "20140e-1".toList) tenth ∧
      (Binary64.ofInt 2014).toRat? = some tenth.value ∧ tenth.value = ((2014 : Int) : ℚ) := by
  intro tenth
  have haccepts : Accepts "20140e-1" 2014 := .limit (by decide +kernel)
  have hspells : Literal.Spells (Text.trim "20140e-1".toList) tenth :=
    Literal.read?_eq_some_iff.1 (by decide +kernel)
  have hdigits : Nat.ofDigitChars 10 (tenth.whole ++ tenth.fraction) 0 = 20140 := by decide +kernel
  have hvalue : tenth.value = ((2014 : Int) : ℚ) := by
    rw [Literal.value, hdigits]
    norm_num [tenth]
  have hheld : (Binary64.ofInt 2014).toRat? = some tenth.value := by
    rw [hvalue]
    exact Binary64.integer?_eq_some_iff.1 (by decide +kernel)
  obtain ⟨l, hl, -, hexact⟩ := accepted_eq_written_iff haccepts
  obtain rfl := hl.unique hspells
  exact ⟨haccepts, hspells, hheld, hexact.2 (.inr ⟨_, hheld⟩)⟩

/-- A fraction whose last digit is lost in rounding is accepted as the integer before it, and an
integer between two values in floating point as one of them. -/
theorem accepts_fraction :
    let fraction : Literal := ⟨false, "2014".toList, "0000000000000001".toList, 0⟩
    let odd : Literal := ⟨false, "9007199254740993".toList, "0".toList, 0⟩
    (Accepts "2014.0000000000000001" 2014 ∧
      Literal.Spells (Text.trim "2014.0000000000000001".toList) fraction ∧
      ∀ n : Int, fraction.value ≠ n) ∧
    Accepts "9007199254740993.0" 9007199254740992 ∧
      Literal.Spells (Text.trim "9007199254740993.0".toList) odd ∧ odd.value = 9007199254740993 := by
  intro fraction odd
  have hfraction : Nat.ofDigitChars 10 (fraction.whole ++ fraction.fraction) 0
      = 20140000000000000001 := by
    decide +kernel
  have hodd : Nat.ofDigitChars 10 (odd.whole ++ odd.fraction) 0 = 90071992547409930 := by
    decide +kernel
  have hlong : fraction.fraction.length = 16 := by decide
  have hshort : odd.fraction.length = 1 := by decide
  refine ⟨⟨.year (by decide +kernel), Literal.read?_eq_some_iff.1 (by decide +kernel), fun n hn => ?_⟩,
    .year (by decide +kernel), Literal.read?_eq_some_iff.1 (by decide +kernel), ?_⟩
  · have hvalue : fraction.value * 10000000000000000 = 20140000000000000001 := by
      rw [Literal.value, hfraction, hlong]
      norm_num [fraction]
    rw [hn] at hvalue
    have hcross : n * 10000000000000000 = 20140000000000000001 := by exact_mod_cast hvalue
    omega
  · rw [Literal.value, hodd, hshort]
    norm_num [odd]

end Request

end MovieCatalog
