import MovieCatalog.Facet.Basic
import MovieCatalog.Proofs.Binary64.Wide

/-!
# Keys that are integers

A signed integer of 64 bits is shown as its numeral. A larger key is rounded to a value in floating
point first, and what is shown is the roundest of the integers that round to this value
(`FacetBucket.exists_shownAs`). So such a key is shown exactly only if it is this integer itself,
and two of them have the same text if they round to the same value
(`FacetBucket.ofEngine_integer_keys`).
-/

namespace MovieCatalog

open Binary64 (Roundest Wide)

/-- An integer is the only one with its numeral. -/
theorem Numeral.ofInt_injective : Function.Injective Numeral.ofInt := fun m n h => by
  have hread := congrArg Numeral.int? h
  rwa [int?_ofInt, int?_ofInt, Option.some.injEq] at hread

namespace FacetBucket

/-- The key of a bucket is an integer, of 64 bits with a sign or without. -/
def HasIntegerKey (bucket : Json) (n : Int) : Prop :=
  ∃ held, bucket.get? "key" = some (.number (.integer n held))

/-- An integer that is a key has 64 bits, with a sign or without. -/
theorem HasIntegerKey.held {b : Json} {n : Int} (h : HasIntegerKey b n) :
    Json.leastInteger ≤ n ∧ n < Json.integerBound :=
  h.elim fun held _ => held

/-- The integer as whose numeral a key is shown. -/
inductive ShownAs (n : Int) : Int → Prop
  | exact (hsigned : n < Word.half64) : ShownAs n n
  | rounded {zeros : Nat} {m : Int} (hwide : Word.half64 ≤ n)
      (hroundest : Roundest (.ofInt n) zeros m) : ShownAs n m

/-- A value in floating point is taken as the integer that it is, up to the bound. -/
theorem map_toInt_wholeBelow? (x : Binary64) :
    (x.wholeBelow? (.ofInt wholeBound)).map (·.toInt)
      = x.integer?.filter fun n => n.natAbs < wholeBound :=
  x.map_toInt_wholeBelow? (by decide +kernel) (by decide)

/-- In floating point, an integer below the bound is written as its numeral. -/
theorem floatKey_of_small {x : Binary64} {n : Int} (hx : x.integer? = some n)
    (hsmall : n.natAbs < wholeBound) : floatKey x = Numeral.ofInt n := by
  rw [floatKey.eq_def, map_toInt_wholeBelow?, hx, Option.filter_some,
    if_pos (decide_eq_true hsmall)]

/-- In floating point, an integer that is too large to be written as a whole number is written as
its shortest decimal number. -/
theorem floatKey_of_wide {ordinal : Fin ordinalBound} {v : Nat} (hv : Wide ordinal v) :
    floatKey (.finite false ordinal)
      = Numeral.ofNat ((Binary64.shortest .up ordinal).digits
        * tenTo (Binary64.shortest .up ordinal).exponent.toNat) := by
  have hlarge : ¬ (v : Int).natAbs < wholeBound := by
    have hbound : wholeBound ≤ Word.half64 := by decide
    have hlow := hv.low
    omega
  have hexponent : 0 ≤ (Binary64.shortest .up ordinal).exponent :=
    Int.le_trans (by decide) hv.fewest_shortest.2
  have htext : keyLayout.text false ordinal
      = keyLayout.plainText (Numeral.ofNat (Binary64.shortest .up ordinal).digits)
        (Binary64.shortest .up ordinal).exponent := by
    simp only [Binary64.Layout.text, if_neg hv.ordinal_ne_zero, Binary64.Layout.decimalText,
      keyLayout, if_true, Bool.false_eq_true, if_false]
  rw [floatKey, map_toInt_wholeBelow?, hv.integer?_eq, Option.filter_some,
    if_neg (by simpa using hlarge), Numeral.ofNat_mul_tenTo (Binary64.shortest_digits_pos .up hv.ordinal_ne_zero)]
  dsimp only
  rw [htext, Binary64.Layout.plainText, if_pos hexponent]
  exact List.append_nil _

variable {m n : Int}

/-- A key that is no signed integer of 64 bits is rounded to a value from `2^63` to `2^64`. -/
theorem exists_wide_of_key (hbound : n < Json.integerBound) (hwide : Word.half64 ≤ n) :
    ∃ ordinal v, Binary64.ofInt n = .finite false ordinal ∧ Wide ordinal v := by
  obtain ⟨k, rfl⟩ := Int.eq_ofNat_of_zero_le (Int.le_trans (Int.natCast_nonneg _) hwide)
  exact Binary64.exists_wide (Int.ofNat_le.1 hwide) (Nat.le_of_lt (Int.ofNat_lt.1 hbound))

/-- Every integer is shown as the numeral of one. -/
theorem exists_shownAs (held : Json.leastInteger ≤ n ∧ n < Json.integerBound) :
    ∃ m, keyText (.number (.integer n held)) = String.ofList (Numeral.ofInt m) ∧ ShownAs n m := by
  rw [keyText]
  rcases lt_or_ge n Word.half64 with hsigned | hwide
  · exact ⟨n, if_pos hsigned, .exact hsigned⟩
  · obtain ⟨ordinal, v, hround, hv⟩ := exists_wide_of_key held.2 hwide
    refine ⟨_, ?_, .rounded hwide (hround ▸ hv.roundest_shortest)⟩
    rw [if_neg (Int.not_lt.2 hwide), Json.Number.toBinary64, hround, floatKey_of_wide hv]
    rfl

/-- There is only one numeral as which an integer is shown. -/
theorem ShownAs.unique (hbound : n < Json.integerBound) {s t : Int} (hs : ShownAs n s)
    (ht : ShownAs n t) : s = t := by
  cases hs with
  | exact hsigned =>
    cases ht with
    | exact => rfl
    | rounded hwide => exact absurd hsigned (Int.not_lt.2 hwide)
  | rounded hwide hs =>
    cases ht with
    | exact hsigned => exact absurd hsigned (Int.not_lt.2 hwide)
    | rounded _ ht =>
      obtain ⟨ordinal, v, hround, hv⟩ := exists_wide_of_key hbound hwide
      rw [hround] at hs ht
      exact hs.unique hv.integer?_eq ht

/-- Neither a signed integer of 64 bits nor a larger one is shown as one of the other kind. -/
theorem ShownAs.signed_iff (hbound : n < Json.integerBound) {s : Int} (h : ShownAs n s) :
    s < Word.half64 ↔ n < Word.half64 := by
  cases h with
  | exact => rfl
  | rounded hwide h =>
    obtain ⟨ordinal, v, hround, hv⟩ := exists_wide_of_key hbound hwide
    rw [hround] at h
    exact iff_of_false (Int.not_lt.2 (hv.half64_le_of_roundest h)) (Int.not_lt.2 hwide)

/-- The text of a bucket whose key is an integer. -/
theorem HasIntegerKey.key_eq_iff {b : Json} (hb : HasIntegerKey b n) (s : Int) :
    (ofEngine b).key = String.ofList (Numeral.ofInt s) ↔ ShownAs n s := by
  obtain ⟨held, hkey⟩ := hb
  obtain ⟨t, htext, ht⟩ := exists_shownAs held
  rw [ofEngine, hkey, Option.map_some, Option.getD_some, htext, String.ofList_inj]
  constructor
  · intro h
    rwa [← Numeral.ofInt_injective h]
  · intro hs
    rw [ht.unique held.2 hs]

/-- An integer is shown exactly if it is signed, or else the roundest of those with its value. -/
theorem shownAs_self_iff :
    ShownAs n n ↔ n < Word.half64 ∨ ∃ zeros, Roundest (.ofInt n) zeros n := by
  constructor
  · intro h
    cases h with
    | exact hsigned => exact .inl hsigned
    | rounded _ hroundest => exact .inr ⟨_, hroundest⟩
  · rintro (hsigned | ⟨zeros, hroundest⟩)
    · exact .exact hsigned
    · rcases lt_or_ge n Word.half64 with hsigned | hwide
      · exact .exact hsigned
      · exact .rounded hwide hroundest

/-- Two integers are shown as the same one only if they are equal, or too large both and of the same
value. -/
theorem ShownAs.shared_iff {s : Int} (hboundm : m < Json.integerBound)
    (hboundn : n < Json.integerBound) (hm : ShownAs m s) :
    ShownAs n s ↔
      m = n ∨ (Word.half64 ≤ m ∧ Word.half64 ≤ n ∧ Binary64.ofInt m = Binary64.ofInt n) := by
  have hkindm := hm.signed_iff hboundm
  constructor
  · intro hn
    have hkindn := hn.signed_iff hboundn
    cases hm with
    | exact hsigned =>
      cases hn with
      | exact => exact .inl rfl
      | rounded hwide => exact absurd (hkindn.1 hsigned) (Int.not_lt.2 hwide)
    | rounded hwide hroundest =>
      cases hn with
      | exact hsigned => exact absurd (hkindm.1 hsigned) (Int.not_lt.2 hwide)
      | rounded hwide' hroundest' =>
        exact .inr ⟨hwide, hwide', hroundest.rounds.symm.trans hroundest'.rounds⟩
  · rintro (rfl | ⟨hwide, hwide', hvalue⟩)
    · exact hm
    · cases hm with
      | exact hsigned => exact absurd hsigned (Int.not_lt.2 hwide)
      | rounded _ hroundest => exact .rounded hwide' (hvalue ▸ hroundest)

/-- An integer key is shown as a numeral, and as its own exactly if it is a signed integer of 64
bits or else the roundest integer of those that round to the same value. Two integer keys have the
same text exactly if they are equal, or if neither is a signed integer of 64 bits and they round to
the same value. -/
theorem ofEngine_integer_keys {b c : Json} (hb : HasIntegerKey b m) (hc : HasIntegerKey c n) :
    (∃ s, (ofEngine b).key = String.ofList (Numeral.ofInt s) ∧ ShownAs m s) ∧
      ((ofEngine b).key = String.ofList (Numeral.ofInt m) ↔
        m < Word.half64 ∨ ∃ zeros, Roundest (.ofInt m) zeros m) ∧
      ((ofEngine b).key = (ofEngine c).key ↔
        m = n ∨ (Word.half64 ≤ m ∧ Word.half64 ≤ n ∧ Binary64.ofInt m = Binary64.ofInt n)) := by
  obtain ⟨s, -, hshown⟩ := exists_shownAs hb.held
  have hkey := (hb.key_eq_iff s).2 hshown
  refine ⟨⟨s, hkey, hshown⟩, ?_, ?_⟩
  · rw [hb.key_eq_iff, shownAs_self_iff]
  · rw [hkey, eq_comm, hc.key_eq_iff, hshown.shared_iff hb.held.2 hc.held.2]

/-- The numbers `10^19` and `10^19 + 1` round to the same value. The first one is the roundest that
does, so it is shown exactly, and so is the second one in its place. -/
theorem ofEngine_integer_keys_power :
    let bucket (n : Int) (held : Json.leastInteger ≤ n ∧ n < Json.integerBound) :=
      Json.object [("key", .number (.integer n held)),
        ("doc_count", .number (.integer 1 (by decide)))]
    let power := bucket 10000000000000000000 (by decide)
    let next := bucket 10000000000000000001 (by decide)
    (HasIntegerKey power 10000000000000000000 ∧ HasIntegerKey next 10000000000000000001) ∧
      (ofEngine power).key = "10000000000000000000" ∧
      (∃ zeros, Roundest (.ofInt 10000000000000000000) zeros 10000000000000000000) ∧
      Binary64.ofInt 10000000000000000000 = Binary64.ofInt 10000000000000000001 ∧
      (ofEngine next).key = "10000000000000000000" := by
  intro bucket power next
  have hpower : HasIntegerKey power 10000000000000000000 := ⟨by decide, rfl⟩
  have hnext : HasIntegerKey next 10000000000000000001 := ⟨by decide, rfl⟩
  obtain ⟨-, hexact, hshared⟩ := ofEngine_integer_keys hpower hnext
  have hkey : (ofEngine power).key = "10000000000000000000" := by decide +kernel
  have hvalue : Binary64.ofInt 10000000000000000000 = Binary64.ofInt 10000000000000000001 := by
    decide +kernel
  refine ⟨⟨hpower, hnext⟩, hkey, ?_, hvalue, ?_⟩
  · exact (hexact.1 (by rw [hkey]; decide +kernel)).resolve_left (by decide)
  · rw [← hshared.2 (.inr ⟨by decide, by decide, hvalue⟩), hkey]

/-- The two largest integers of 64 bits without a sign are shown as the same integer, which is none
of them. -/
theorem ofEngine_integer_keys_collide :
    let bucket (n : Int) (held : Json.leastInteger ≤ n ∧ n < Json.integerBound) :=
      Json.object [("key", .number (.integer n held)),
        ("doc_count", .number (.integer 1 (by decide)))]
    let last := bucket 18446744073709551615 (by decide)
    let previous := bucket 18446744073709551614 (by decide)
    (ofEngine last).key = "18446744073709552000" ∧
      (ofEngine last).key ≠ String.ofList (Numeral.ofInt 18446744073709551615) ∧
      (ofEngine previous).key = (ofEngine last).key := by
  decide +kernel

end FacetBucket

end MovieCatalog
