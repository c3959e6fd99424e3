import MovieCatalog.Proofs.Binary64.Reading
import MovieCatalog.Request.QueryString

/-!
# What values of parameters are read as

What is read from a value is in normal form: texts are not empty and unpadded
(`Parameter.normalText_text?`), elements of lists hold no comma either
(`Parameter.normal_of_mem_list`), bounds are finite (`Parameter.isFinite_of_number?`) and counts are
below `2^63` (`Parameter.normalCount_natural?`). What is in normal form is read back from a text
that spells it.
-/

namespace MovieCatalog.Parameter

open Request (NormalText NormalCount)

/-- A form with one value assigns it to its parameter and does nothing else. -/
theorem ofForm_single (p : Parameter) (value : String) :
    Request.ofForm [(p.name, value)] = Request.empty.assign p value := by
  rw [Request.ofForm, List.foldl_cons, List.foldl_nil, Request.accept, ofName?_name]

/-! ## Texts and lists -/

/-- A text is read as what trimming leaves of it. -/
theorem normalText_text? (value : String) : NormalText (text? value) := by
  intro s hs
  rw [text?] at hs
  split at hs
  · cases hs
  · next hempty =>
    obtain rfl := Option.some.inj hs
    refine ⟨fun h => hempty (by simp [h]), ?_⟩
    rw [Text.trimmed, String.toList_ofList]
    exact Text.unpadded_trim value.toList

/-- A text in normal form is read as itself. -/
theorem text?_of_normal {s : String} (h : NormalText (some s)) : text? s = some s := by
  obtain ⟨hne, hunpadded⟩ := h s rfl
  have htrimmed : Text.trimmed s = s := by
    rw [Text.trimmed, hunpadded.trim_eq, String.ofList_toList]
  rw [text?, htrimmed]
  exact if_neg fun h => hne (String.isEmpty_iff.1 h)

/-- What stands between two commas holds none. -/
theorem notMem_of_mem_splitOn {s piece : List Char} (h : piece ∈ s.splitOn ',') : ',' ∉ piece := by
  intro hcomma
  have hmark : (',' == ',') = false := Text.not_of_mem_splitOnP h ',' hcomma
  cases hmark

/-- The elements of a list are texts in normal form, without commas. -/
theorem normal_of_mem_list {value g : String} (h : g ∈ list value) :
    NormalText (some g) ∧ ',' ∉ g.toList := by
  obtain ⟨hg, hempty⟩ := List.mem_filter.1 h
  obtain ⟨piece, hpiece, rfl⟩ := List.mem_map.1 hg
  rw [String.toList_ofList]
  refine ⟨?_, fun hcomma => notMem_of_mem_splitOn hpiece (Text.mem_of_mem_trim hcomma)⟩
  intro s hs
  obtain rfl := Option.some.inj hs
  refine ⟨fun h => by simp [h] at hempty, ?_⟩
  rw [String.toList_ofList]
  exact Text.unpadded_trim piece

/-- A text in normal form without commas is a list of itself. -/
theorem list_of_normal {g : String} (h : NormalText (some g)) (hcomma : ',' ∉ g.toList) :
    list g = [g] := by
  obtain ⟨hne, hunpadded⟩ := h g rfl
  rw [list, List.splitOn_eq_singleton hcomma, List.map_singleton, hunpadded.trim_eq,
    String.ofList_toList]
  exact List.filter_cons_of_pos (by simpa using hne)

/-! ## Numbers -/

/-- A number that is read is finite. -/
theorem isFinite_of_number? {value : String} {x : Binary64} (h : number? value = some x) :
    x.isFinite = true :=
  (Option.filter_eq_some_iff.1 h).2

/-- A text that means a finite value is read as this value. -/
theorem number?_of_read? {value : String} {x : Binary64}
    (h : Binary64.read? value.toList = some x) (hx : x.isFinite = true) :
    number? value = some x := by
  have hunpadded := Text.unpadded_of_forall (Binary64.not_isBlank_of_read? h)
  rw [number?, hunpadded.trim_eq, h, Option.filter_some, if_pos hx]

/-- A numeral is read as its integer, if the integer has 64 bits. -/
theorem integer?_ofInt {n : Int} (hlow : -(Word.half64 : Int) ≤ n) (hhigh : n < Word.half64) :
    integer? (String.ofList (Numeral.ofInt n)) = some (.ofInt n) := by
  have hunpadded := Text.unpadded_of_forall (Numeral.not_isBlank_ofInt n)
  rw [integer?, String.toList_ofList, hunpadded.trim_eq, Numeral.int?_ofInt, Option.filter_some,
    if_pos (decide_eq_true ⟨hlow, hhigh⟩)]
  rfl

/-- A numeral is read as its integer, if the integer is no greater than the greatest signed one. -/
theorem natural?_ofNat {n : UInt64} (h : n.toNat < Word.half64) :
    natural? (String.ofList (Numeral.ofNat n.toNat)) = some n := by
  have hread : integer? (String.ofList (Numeral.ofNat n.toNat)) = some (.ofInt n.toNat) :=
    integer?_ofInt (n := n.toNat) (by omega) (by omega)
  have hnonneg : (0 : Int64) ≤ .ofInt n.toNat := by
    rw [Int64.le_iff_toInt_le, Word.toInt_ofInt (by omega) (by omega)]
    exact Int.natCast_nonneg n.toNat
  have hword : (Int64.ofInt n.toNat).toUInt64 = n := by
    rw [Int64.ofInt_eq_ofNat, Int64.toUInt64_ofNat', UInt64.ofNat_toNat]
  rw [natural?, hread, Option.filter_some, if_pos (decide_eq_true hnonneg), Option.map_some, hword]

/-- A count is an integer of 63 bits. -/
theorem normalCount_natural? (value : String) : NormalCount (natural? value) := by
  intro n hn
  obtain ⟨i, hi, rfl⟩ := Option.map_eq_some_iff.1 hn
  obtain ⟨-, hnonneg⟩ := Option.filter_eq_some_iff.1 hi
  have hnat := Int64.toNat_toUInt64_of_le (of_decide_eq_true hnonneg)
  have hlt := i.toInt_lt
  rw [hnat, ← Int64.toNat_toInt]
  simp only [Word.half64]
  omega

end MovieCatalog.Parameter
