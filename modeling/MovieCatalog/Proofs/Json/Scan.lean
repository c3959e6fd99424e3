import MovieCatalog.Proofs.Json.Grammar
import Mathlib.Data.List.Basic

/-!
# The scanner follows the grammar

The scanner reads every text that the grammar allows as its tree, with nothing behind it
(`Document.read_of_spells`). Every token is read up to where it ends, whatever follows; only a
number must be followed by something that cannot be part of it (`Ended`), which commas, brackets,
braces and blanks cannot. There is one lemma for each step of the scanner (`Scan.value_array`,
`Scan.items_more`, `Scan.members_last`), so the induction over the grammar
(`Scan.value_of_spells`) does not open the scanner. The fuel is counted by characters: a value
takes no more steps than it has characters, and a row of elements or members one more.
-/

namespace MovieCatalog.Json

/-- The text of characters, as it is read. -/
def spelt (cs : List Char) : Rest := cs.map .scalar

theorem spelt_append (cs ds : List Char) : spelt (cs ++ ds) = spelt cs ++ spelt ds :=
  List.map_append

theorem spelt_cons (c : Char) (cs : List Char) : spelt (c :: cs) = .scalar c :: spelt cs := rfl

/-! ## Numbers -/

/-- What may follow a number: nothing that would be part of it. -/
def Ended (rest : Rest) : Prop :=
  ∀ p, rest.head? = some p →
    Scan.digit? p = none ∧ p ≠ .scalar '.' ∧ p ≠ .scalar 'e' ∧ p ≠ .scalar 'E'

namespace Scan

/-- Digits are read as far as they go. -/
theorem digits_append {ds : List Char} (hds : ∀ c ∈ ds, c.isDigit = true) {rest : Rest}
    (hrest : ∀ p, rest.head? = some p → digit? p = none) :
    digits (spelt ds ++ rest) = (ds, rest) := by
  have hpiece : ∀ p ∈ spelt ds, (digit? p).isSome = true := by
    intro p hp
    obtain ⟨c, hc, rfl⟩ := List.mem_map.1 hp
    simp [digit?, hds c hc]
  have htake : rest.takeWhile (fun p => (digit? p).isSome) = [] := by
    cases rest with
    | nil => rfl
    | cons p rest => simp [hrest p rfl]
  have hdrop : rest.dropWhile (fun p => (digit? p).isSome) = rest := by
    cases rest with
    | nil => rfl
    | cons p rest => simp [hrest p rfl]
  have hread : (spelt ds).filterMap digit? = ds := by
    rw [spelt, List.filterMap_map]
    calc ds.filterMap (digit? ∘ .scalar) = ds.filterMap some :=
          List.filterMap_congr fun c hc => by simp [digit?, hds c hc]
      _ = ds := List.filterMap_some
  rw [digits, List.takeWhile_append_of_pos hpiece, List.dropWhile_append_of_pos hpiece, htake,
    hdrop, List.append_nil, hread]

/-- Where a power of ten may stand, what ends a number is left alone. -/
theorem power_of_ended {rest : Rest} (h : Ended rest) : power rest = (.ok none, rest) := by
  unfold power
  split
  · next c rest =>
    obtain ⟨-, -, hsmall, hcapital⟩ := h _ rfl
    rw [if_neg]
    rintro (rfl | rfl)
    · exact hsmall rfl
    · exact hcapital rfl
  · rfl

/-- The sign of a power of ten is read before its digits. -/
theorem power_signed {c : Char} {sign ds : List Char} {negative : Bool} (hc : c = 'e' ∨ c = 'E')
    (hsign : SpellsSign sign negative) (hds : Digits ds) {rest : Rest} (h : Ended rest) :
    power (.scalar c :: (spelt sign ++ (spelt ds ++ rest)))
      = (.ok (some (signedValue negative ds)), rest) := by
  have hdigits : digits (spelt ds ++ rest) = (ds, rest) :=
    digits_append hds.isDigit fun p hp => (h p hp).1
  cases hsign with
  | plus =>
    have htext : spelt ['+'] ++ (spelt ds ++ rest) = .scalar '+' :: (spelt ds ++ rest) := rfl
    simp [power, hc, htext, hdigits, hds.ne_nil, signedValue]
  | minus =>
    have htext : spelt ['-'] ++ (spelt ds ++ rest) = .scalar '-' :: (spelt ds ++ rest) := rfl
    simp [power, hc, htext, hdigits, hds.ne_nil, signedValue]
  | absent =>
    have htext : spelt [] ++ (spelt ds ++ rest) = spelt ds ++ rest := rfl
    have hhead : ∀ p, (spelt ds ++ rest).head? = some p → p ≠ .scalar '-' ∧ p ≠ .scalar '+' := by
      intro p hp
      obtain ⟨d, ds', rfl⟩ := List.exists_cons_of_ne_nil hds.ne_nil
      have hd := hds.isDigit d List.mem_cons_self
      obtain rfl := Option.some.inj hp
      constructor <;> rintro ⟨⟩ <;> cases hd
    rw [htext]
    generalize spelt ds ++ rest = text at hdigits hhead
    simp only [power, hc, if_true]
    split
    · exact absurd rfl (hhead _ rfl).1
    · exact absurd rfl (hhead _ rfl).2
    · simp [hdigits, hds.ne_nil, signedValue]

/-- Neither a digit nor a point stands where a power of ten may stand. -/
theorem head?_of_spellsPower {letter : List Char} {p : Option Int} (hpower : SpellsPower letter p)
    {rest : Rest} (h : Ended rest) :
    ∀ q, (spelt letter ++ rest).head? = some q → digit? q = none ∧ q ≠ .scalar '.' := by
  intro q hq
  cases hpower with
  | absent => exact ⟨(h q hq).1, (h q hq).2.1⟩
  | letter hc =>
    obtain rfl := Option.some.inj hq
    rcases hc with rfl | rfl <;> exact ⟨rfl, by decide⟩

/-- A number is complete behind its digits. -/
theorem scaled_of_spells (negative : Bool) (whole fraction : List Char) {letter : List Char}
    {p : Option Int} (hpower : SpellsPower letter p) {rest : Rest} (h : Ended rest) :
    scaled negative whole fraction (spelt letter ++ rest)
      = (.ofParts negative whole fraction p, rest) := by
  cases hpower with
  | absent =>
    rw [scaled, spelt, List.map_nil, List.nil_append, power_of_ended h]
    rfl
  | letter hc hsign hds =>
    rw [scaled, spelt_cons, spelt_append, List.cons_append, List.append_assoc,
      power_signed hc hsign hds h]
    rfl

/-- A number is complete behind its whole part. -/
theorem afterWhole_of_spells (negative : Bool) (whole : List Char)
    {point fraction letter : List Char} {p : Option Int}
    (hfraction : SpellsFraction point fraction) (hpower : SpellsPower letter p) {rest : Rest}
    (h : Ended rest) :
    afterWhole negative whole (spelt point ++ (spelt letter ++ rest))
      = (.ofParts negative whole fraction p, rest) := by
  have hhead := head?_of_spellsPower hpower h
  have hscaled := scaled_of_spells negative whole fraction hpower h
  generalize spelt letter ++ rest = text at hhead hscaled
  cases hfraction with
  | absent =>
    rw [spelt, List.map_nil, List.nil_append, afterWhole.eq_def]
    split
    · exact absurd rfl (hhead _ rfl).2
    · exact hscaled
  | point hds =>
    rw [spelt_cons, List.cons_append, afterWhole,
      digits_append hds.isDigit fun q hq => (hhead q hq).1]
    simp only [List.isEmpty_iff, hds.ne_nil, if_false]
    exact hscaled

/-- A number is read behind its sign, and what follows it is left. -/
theorem number_of_spells {negative : Bool} {text : List Char} {l : NumberLexeme}
    (hnumber : SpellsUnsigned negative text l) {rest : Rest} (h : Ended rest) :
    number negative (spelt text ++ rest) = (l, rest) := by
  cases hnumber with
  | @parts whole point fraction letter p hwhole hfraction hpower =>
    have hafter := afterWhole_of_spells negative whole hfraction hpower h
    have hhead : ∀ q, (spelt point ++ (spelt letter ++ rest)).head? = some q → digit? q = none := by
      intro q hq
      cases hfraction with
      | absent => exact (head?_of_spellsPower hpower h q hq).1
      | point =>
        obtain rfl := Option.some.inj hq
        rfl
    rw [spelt_append, spelt_append, List.append_assoc, List.append_assoc, number,
      digits_append hwhole.isDigit hhead]
    dsimp only
    split
    · exact absurd rfl hwhole.ne_nil
    · exact absurd rfl (hwhole.no_leading_zero _ _)
    · exact hafter

/-! ## Strings -/

/-- A character that needs no escape is scanned as itself. -/
theorem string_plain {c : Char} (hquote : c ≠ '"') (hback : c ≠ '\\') (hc : ¬ c.toNat < 0x20)
    (done : List StringUnit) (rest : Rest) :
    string done (.scalar c :: rest) = string (.char c :: done) rest := by
  rw [string.eq_def]
  split
  case h_9 heq =>
    obtain ⟨hchar, rfl⟩ := List.cons.inj heq
    obtain rfl := Text.Piece.scalar.inj hchar
    rw [if_neg hc]
  -- every other case begins with a quote, a backslash or what is no character
  all_goals simp_all

/-- A unit of a string is read as such. -/
theorem string_of_spellsUnit {text : List Char} {u : StringUnit} (hu : SpellsUnit text u)
    (done : List StringUnit) (rest : Rest) :
    string done (spelt text ++ rest) = string (u :: done) rest := by
  cases hu with
  | plain hquote hback hcontrol => exact string_plain hquote hback hcontrol done rest
  | letter h =>
    -- one case for each of the eight letters
    unfold unescape? at h
    split at h <;> cases h <;> rfl
  | code h =>
    simp only [spelt, List.map_cons, List.map_nil, List.cons_append, List.nil_append]
    rw [string, h]

/-- A string is read up to its closing quote. -/
theorem string_of_spellsUnits {text : List Char} {us : List StringUnit} (hus : SpellsUnits text us)
    (done : List StringUnit) (rest : Rest) :
    string done (spelt text ++ .scalar '"' :: rest) = (⟨done.reverse ++ us, .closed⟩, rest) := by
  induction hus generalizing done with
  | nil => rw [spelt, List.map_nil, List.nil_append, string, List.append_nil]
  | cons hu _ ih =>
    rw [spelt_append, List.append_assoc, string_of_spellsUnit hu, ih, List.reverse_cons,
      List.append_assoc, List.singleton_append]

/-- A string in its quotes begins with a quote, behind which it is read. -/
theorem string_of_spellsString {text : List Char} {l : StringLexeme} (h : SpellsString text l)
    (rest : Rest) :
    l.ending = .closed ∧
      ∃ inside, spelt text ++ rest = .scalar '"' :: inside ∧ string [] inside = (l, rest) := by
  cases h with
  | @quoted text us hus =>
    refine ⟨rfl, spelt text ++ .scalar '"' :: rest, ?_, string_of_spellsUnits hus [] rest⟩
    rw [spelt_cons, spelt_append, List.cons_append, List.append_assoc]
    rfl

end Scan

/-! ## Blanks and beginnings -/

/-- A character that a value may begin with: neither a blank nor the end of an array. -/
def Begins (c : Char) : Prop :=
  Scan.isBlank (.scalar c) = false ∧ c ≠ ']'

instance (c : Char) : Decidable (Begins c) :=
  inferInstanceAs (Decidable (_ ∧ _))

/-- A number may begin with any digit. -/
theorem begins_of_isDigit {c : Char} (h : c.isDigit = true) : Begins c := by
  refine ⟨?_, ?_⟩
  · simp only [Scan.isBlank, decide_eq_false_iff_not]
    rintro (rfl | rfl | rfl | rfl) <;> cases h
  · rintro rfl
    cases h

/-- The digits of a number come first, behind the sign. -/
theorem SpellsUnsigned.eq_cons {negative : Bool} {text : List Char} {l : NumberLexeme}
    (h : SpellsUnsigned negative text l) : ∃ c cs, text = c :: cs ∧ c.isDigit = true := by
  cases h with
  | @parts whole point fraction letter p hwhole =>
    obtain ⟨c, cs, rfl⟩ := List.exists_cons_of_ne_nil hwhole.ne_nil
    exact ⟨c, _, rfl, hwhole.isDigit c List.mem_cons_self⟩

/-- A value has a first character, which it may begin with. -/
theorem Spells.eq_cons {text : List Char} {n : Node} (h : Spells text n) :
    ∃ c cs, text = c :: cs ∧ Begins c := by
  cases h with
  | null | true | false | emptyArray | array | emptyObject | object =>
    exact ⟨_, _, rfl, by decide⟩
  | number h =>
    cases h with
    | minus h => exact ⟨_, _, rfl, by decide⟩
    | plain h =>
      obtain ⟨c, cs, htext, hc⟩ := h.eq_cons
      exact ⟨c, cs, htext, begins_of_isDigit hc⟩
  | string h =>
    cases h
    exact ⟨_, _, rfl, by decide⟩

/-- Every value takes a character at least. -/
theorem Spells.length_pos {text : List Char} {n : Node} (h : Spells text n) : 0 < text.length := by
  obtain ⟨c, cs, rfl, -⟩ := h.eq_cons
  exact Nat.succ_pos _

/-- Elements begin as the first of them does. -/
theorem SpellsItems.eq_cons {text : List Char} {ns : List Node} (h : SpellsItems text ns) :
    ∃ c cs, text = c :: cs ∧ Begins c := by
  cases h with
  | last h | more h =>
    obtain ⟨c, cs, rfl, hc⟩ := h.eq_cons
    exact ⟨c, _, rfl, hc⟩

/-- Members begin with the quote of the first key. -/
theorem SpellsMembers.eq_cons {text : List Char} {ms : List (StringLexeme × Node)}
    (h : SpellsMembers text ms) : ∃ cs, text = '"' :: cs := by
  cases h with
  | last hkey | more hkey =>
    cases hkey
    exact ⟨_, rfl⟩

theorem isBlank_of_blanks {bs : List Char} (hbs : Blanks bs) :
    ∀ p ∈ spelt bs, Scan.isBlank p = true := by
  intro p hp
  obtain ⟨c, hc, rfl⟩ := List.mem_map.1 hp
  simpa [Scan.isBlank] using hbs c hc

/-- What ends a number may stand behind blanks, which end it too. -/
theorem Ended.blanks_append {bs : List Char} (hbs : Blanks bs) {rest : Rest} (h : Ended rest) :
    Ended (spelt bs ++ rest) := by
  cases bs with
  | nil => exact h
  | cons b bs =>
    intro p hp
    obtain rfl := Option.some.inj hp
    have hb := hbs b List.mem_cons_self
    simp only [List.mem_cons, List.not_mem_nil, or_false] at hb
    rcases hb with rfl | rfl | rfl | rfl <;> exact ⟨rfl, by decide, by decide, by decide⟩

theorem ended_nil : Ended [] := fun _ hp => nomatch hp

/-- A comma, a bracket or a brace ends a number. -/
theorem ended_cons {c : Char} (hc : c ∈ [',', ']', '\x7d']) (rest : Rest) :
    Ended (.scalar c :: rest) := by
  intro p hp
  obtain rfl := Option.some.inj hp
  simp only [List.mem_cons, List.not_mem_nil, or_false] at hc
  rcases hc with rfl | rfl | rfl <;> exact ⟨rfl, by decide, by decide, by decide⟩

namespace Scan

/-- Blanks are skipped. -/
theorem skipBlanks_append {bs : List Char} (hbs : Blanks bs) (rest : Rest) :
    skipBlanks (spelt bs ++ rest) = skipBlanks rest :=
  List.dropWhile_append_of_pos (isBlank_of_blanks hbs)

/-- Nothing is skipped in front of what is not blank. -/
theorem skipBlanks_cons {c : Char} (hc : isBlank (.scalar c) = false) (rest : Rest) :
    skipBlanks (.scalar c :: rest) = .scalar c :: rest :=
  List.dropWhile_cons_of_neg (by simp [hc])

/-- Blanks are skipped up to what is none. -/
theorem skipBlanks_append_cons {bs : List Char} (hbs : Blanks bs) {c : Char}
    (hc : isBlank (.scalar c) = false) (rest : Rest) :
    skipBlanks (spelt bs ++ .scalar c :: rest) = .scalar c :: rest := by
  rw [skipBlanks_append hbs, skipBlanks_cons hc]

/-! ## Steps of the scanner -/

/-- Blanks before a value make no difference. -/
theorem value_blanks_append (fuel : Nat) {bs : List Char} (hbs : Blanks bs) (rest : Rest) :
    value fuel (spelt bs ++ rest) = value fuel rest := by
  cases fuel with
  | zero => rfl
  | succ fuel => rw [value, value, skipBlanks_append hbs]

/-- A number is a value, unless it is broken. -/
theorem numberValue_ofParts (negative : Bool) (whole fraction : List Char) (p : Option Int)
    (rest : Rest) :
    numberValue (.ofParts negative whole fraction p, rest)
      = (.number (.ofParts negative whole fraction p), some rest) := by
  unfold NumberLexeme.ofParts
  split
  · rfl
  · split <;> rfl

/-- A number that is spelt is not broken. -/
theorem numberValue_of_spells {negative : Bool} {text : List Char} {l : NumberLexeme}
    (h : SpellsUnsigned negative text l) (rest : Rest) :
    numberValue (l, rest) = (.number l, some rest) := by
  cases h
  exact numberValue_ofParts ..

/-- A digit begins a number. -/
theorem value_of_isDigit (fuel : Nat) {c : Char} (hc : c.isDigit = true) (rest : Rest) :
    value (fuel + 1) (.scalar c :: rest) = numberValue (number false (.scalar c :: rest)) := by
  rw [value, skipBlanks_cons (begins_of_isDigit hc).1]
  split
  case h_9 heq =>
    obtain ⟨rfl, rfl⟩ := List.cons.inj heq
    rw [if_pos (by simp [digit?, hc])]
  -- no other beginning is a digit
  all_goals
    rename_i heq
    cases heq <;> cases hc

/-- A number is scanned up to what cannot continue it. -/
theorem value_number {fuel : Nat} {text : List Char} {l : NumberLexeme} (h : SpellsNumber text l)
    {rest : Rest} (hrest : Ended rest) :
    value (fuel + 1) (spelt text ++ rest) = (.number l, some rest) := by
  cases h with
  | minus h =>
    rw [spelt_cons, List.cons_append, value, skipBlanks_cons (by decide)]
    simp only [number_of_spells h hrest, numberValue_of_spells h]
  | plain h =>
    have hnumber := number_of_spells h hrest
    obtain ⟨c, cs, rfl, hc⟩ := h.eq_cons
    rw [spelt_cons, List.cons_append] at hnumber ⊢
    rw [value_of_isDigit fuel hc, hnumber, numberValue_of_spells h]

/-- A string is scanned up to its quotation mark, whatever follows. -/
theorem value_string {fuel : Nat} {text : List Char} {l : StringLexeme} (h : SpellsString text l)
    (rest : Rest) : value (fuel + 1) (spelt text ++ rest) = (.string l, some rest) := by
  obtain ⟨hclosed, inside, htext, hstring⟩ := string_of_spellsString h rest
  rw [htext, value, skipBlanks_cons (by decide)]
  simp only [hstring, stringValue, hclosed, if_true]

/-! ### Arrays -/

/-- Brackets with nothing but blanks between them are an array without items. -/
theorem value_emptyArray (fuel : Nat) {bs : List Char} (hbs : Blanks bs) (rest : Rest) :
    value (fuel + 1) (.scalar '[' :: (spelt bs ++ .scalar ']' :: rest))
      = (.array [] .closed, some rest) := by
  rw [value, skipBlanks_cons (by decide)]
  simp only []
  rw [skipBlanks_append_cons hbs (by decide)]
  rfl

/-- An array with an element is scanned as its elements are. -/
theorem value_array {fuel : Nat} {bs : List Char} (hbs : Blanks bs) {c : Char} (hc : Begins c)
    {text after : Rest} {ns : List Node}
    (h : items fuel (.scalar c :: text) = (ns, .closed, some after)) :
    value (fuel + 1) (.scalar '[' :: (spelt bs ++ .scalar c :: text))
      = (.array ns .closed, some after) := by
  rw [value, skipBlanks_cons (by decide)]
  simp only []
  rw [skipBlanks_append_cons hbs hc.1]
  split
  · next heq => cases heq
  · next heq =>
    obtain ⟨hc', -⟩ := List.cons.inj heq
    exact absurd (Text.Piece.scalar.inj hc') hc.2
  · rw [h]

/-- The last element is followed by the bracket. -/
theorem items_last {fuel : Nat} {text after : Rest} {n : Node} {bs : List Char} (hbs : Blanks bs)
    (h : value fuel text = (n, some (spelt bs ++ .scalar ']' :: after))) :
    items (fuel + 1) text = ([n], .closed, some after) := by
  rw [items, h]
  simp only []
  rw [skipBlanks_append_cons hbs (by decide)]
  rfl

/-- Another element is followed by a comma. -/
theorem items_more {fuel : Nat} {text after : Rest} {n : Node} {bs cs : List Char} {c : Char}
    (hbs : Blanks bs) (hcs : Blanks cs) (hc : Begins c)
    (h : value fuel text
      = (n, some (spelt bs ++ .scalar ',' :: (spelt cs ++ .scalar c :: after))))
    {ns : List Node} {ending : ArrayEnd} {end? : Option Rest}
    (hmore : items fuel (.scalar c :: after) = (ns, ending, end?)) :
    items (fuel + 1) text = (n :: ns, ending, end?) := by
  rw [items, h]
  simp only []
  rw [skipBlanks_append_cons hbs (by decide)]
  simp only []
  rw [skipBlanks_append_cons hcs hc.1]
  split
  · next heq => cases heq
  · next heq =>
    obtain ⟨hc', -⟩ := List.cons.inj heq
    exact absurd (Text.Piece.scalar.inj hc') hc.2
  · rw [hmore]

/-! ### Objects -/

/-- Braces with nothing but blanks between them are an object without members. -/
theorem value_emptyObject (fuel : Nat) {bs : List Char} (hbs : Blanks bs) (rest : Rest) :
    value (fuel + 1) (.scalar '\x7b' :: (spelt bs ++ .scalar '\x7d' :: rest))
      = (.object [] .closed, some rest) := by
  rw [value, skipBlanks_cons (by decide)]
  simp only []
  rw [skipBlanks_append_cons hbs (by decide)]
  rfl

/-- An object with a member is scanned as its members are. -/
theorem value_object {fuel : Nat} {bs : List Char} (hbs : Blanks bs) {text after : Rest}
    {ms : List (StringLexeme × Node)}
    (h : members fuel (.scalar '"' :: text) = (ms, .closed, some after)) :
    value (fuel + 1) (.scalar '\x7b' :: (spelt bs ++ .scalar '"' :: text))
      = (.object ms .closed, some after) := by
  rw [value, skipBlanks_cons (by decide)]
  simp only []
  rw [skipBlanks_append_cons hbs (by decide)]
  split
  · next heq => cases heq
  · next heq => cases heq
  · rw [h]

/-- The last member is followed by the brace. -/
theorem members_last {fuel : Nat} {quoted bs ds : List Char} {key : StringLexeme} {n : Node}
    {text after : Rest} (hkey : SpellsString quoted key) (hbs : Blanks bs) (hds : Blanks ds)
    (h : value fuel text = (n, some (spelt ds ++ .scalar '\x7d' :: after))) :
    members (fuel + 1) (spelt quoted ++ (spelt bs ++ .scalar ':' :: text))
      = ([(key, n)], .closed, some after) := by
  obtain ⟨hclosed, inside, htext, hscan⟩ :=
    string_of_spellsString hkey (spelt bs ++ .scalar ':' :: text)
  rw [htext, members, hscan]
  simp only []
  rw [if_pos hclosed, skipBlanks_append_cons hbs (by decide)]
  simp only []
  rw [h]
  simp only []
  rw [skipBlanks_append_cons hds (by decide)]
  rfl

/-- Another member is followed by a comma. -/
theorem members_more {fuel : Nat} {quoted bs ds es : List Char} {key : StringLexeme} {n : Node}
    {text after : Rest} (hkey : SpellsString quoted key) (hbs : Blanks bs) (hds : Blanks ds)
    (hes : Blanks es)
    (h : value fuel text
      = (n, some (spelt ds ++ .scalar ',' :: (spelt es ++ .scalar '"' :: after))))
    {ms : List (StringLexeme × Node)} {ending : ObjectEnd} {end? : Option Rest}
    (hmore : members fuel (.scalar '"' :: after) = (ms, ending, end?)) :
    members (fuel + 1) (spelt quoted ++ (spelt bs ++ .scalar ':' :: text))
      = ((key, n) :: ms, ending, end?) := by
  obtain ⟨hclosed, inside, htext, hscan⟩ :=
    string_of_spellsString hkey (spelt bs ++ .scalar ':' :: text)
  rw [htext, members, hscan]
  simp only []
  rw [if_pos hclosed, skipBlanks_append_cons hbs (by decide)]
  simp only []
  rw [h]
  simp only []
  rw [skipBlanks_append_cons hds (by decide)]
  simp only []
  rw [skipBlanks_append_cons hes (by decide)]
  split
  · next heq => cases heq
  · next heq => cases heq
  · rw [hmore]

/-! ### Whole values -/

/-- Fuel for a text and one character more is fuel for two steps. -/
theorem exists_add_two {length : Nat} (hpos : 0 < length) (fuel : Nat) (h : length + 1 ≤ fuel) :
    ∃ f, fuel = f + 2 :=
  ⟨fuel - 2, by omega⟩

mutual

/-- A value is scanned as its tree, and what follows it is left. It takes no more steps than it has
characters. -/
theorem value_of_spells : ∀ {text : List Char} {n : Node}, Spells text n →
    ∀ (fuel : Nat) {rest : Rest}, text.length ≤ fuel + 1 → Ended rest →
      value (fuel + 1) (spelt text ++ rest) = (n, some rest)
  | _, _, .null, _, _, _, _ => rfl
  | _, _, .true, _, _, _, _ => rfl
  | _, _, .false, _, _, _, _ => rfl
  | _, _, .number h, _, _, _, hrest => value_number h hrest
  | _, _, .string h, _, rest, _, _ => value_string h rest
  | _, _, .emptyArray hbs, fuel, rest, _, _ => by
    simp only [spelt_cons, spelt_append, List.cons_append, List.append_assoc]
    exact value_emptyArray fuel hbs rest
  | _, _, .emptyObject hbs, fuel, rest, _, _ => by
    simp only [spelt_cons, spelt_append, List.cons_append, List.append_assoc]
    exact value_emptyObject fuel hbs rest
  | _, _, .array hbs h, fuel, rest, hfuel, _ => by
    simp only [List.length_cons, List.length_append, List.length_nil] at hfuel
    have hitems := items_of_spells h fuel rest (by omega)
    obtain ⟨c, cs, rfl, hc⟩ := h.eq_cons
    simp only [spelt_cons, spelt_append, List.cons_append, List.append_assoc] at hitems ⊢
    exact value_array hbs hc hitems
  | _, _, .object hbs h, fuel, rest, hfuel, _ => by
    simp only [List.length_cons, List.length_append, List.length_nil] at hfuel
    have hmembers := members_of_spells h fuel rest (by omega)
    obtain ⟨cs, rfl⟩ := h.eq_cons
    simp only [spelt_cons, spelt_append, List.cons_append, List.append_assoc] at hmembers ⊢
    exact value_object hbs hmembers

/-- Elements are scanned as their trees. -/
theorem items_of_spells : ∀ {text : List Char} {ns : List Node}, SpellsItems text ns →
    ∀ (fuel : Nat) (rest : Rest), text.length + 1 ≤ fuel →
      items fuel (spelt text ++ .scalar ']' :: rest) = (ns, .closed, some rest)
  | _, _, .last h hbs, fuel, rest, hfuel => by
    simp only [List.length_append] at hfuel
    obtain ⟨fuel, rfl⟩ := exists_add_two h.length_pos fuel (by omega)
    have hvalue := value_of_spells h fuel (by omega)
      ((ended_cons (c := ']') (by decide) rest).blanks_append hbs)
    rw [spelt_append, List.append_assoc]
    exact items_last hbs hvalue
  | _, _, .more h hbs hcs hmore, fuel, rest, hfuel => by
    simp only [List.length_append, List.length_cons] at hfuel
    obtain ⟨fuel, rfl⟩ := exists_add_two h.length_pos fuel (by omega)
    have hitems := items_of_spells hmore (fuel + 1) rest (by omega)
    obtain ⟨c, cs, rfl, hc⟩ := hmore.eq_cons
    have hvalue := fun after => value_of_spells h fuel (by omega)
      ((ended_cons (c := ',') (by decide) after).blanks_append hbs)
    simp only [spelt_cons, spelt_append, List.cons_append, List.append_assoc] at hitems ⊢
    exact items_more hbs hcs hc (hvalue _) hitems

/-- Members are scanned as their keys and trees. -/
theorem members_of_spells : ∀ {text : List Char} {ms : List (StringLexeme × Node)},
    SpellsMembers text ms → ∀ (fuel : Nat) (rest : Rest), text.length + 1 ≤ fuel →
      members fuel (spelt text ++ .scalar '\x7d' :: rest) = (ms, .closed, some rest)
  | _, _, .last hkey hbs hcs h hds, fuel, rest, hfuel => by
    simp only [List.length_append, List.length_cons] at hfuel
    obtain ⟨fuel, rfl⟩ := exists_add_two h.length_pos fuel (by omega)
    have hended := (ended_cons (c := '\x7d') (by decide) rest).blanks_append hds
    have hvalue := (value_blanks_append (fuel + 1) hcs _).trans
      (value_of_spells h fuel (by omega) hended)
    simp only [spelt_cons, spelt_append, List.cons_append, List.append_assoc]
    exact members_last hkey hbs hds hvalue
  | _, _, .more hkey hbs hcs h hds hes hmore, fuel, rest, hfuel => by
    simp only [List.length_append, List.length_cons] at hfuel
    obtain ⟨fuel, rfl⟩ := exists_add_two h.length_pos fuel (by omega)
    have hmembers := members_of_spells hmore (fuel + 1) rest (by omega)
    obtain ⟨inside, rfl⟩ := hmore.eq_cons
    have hended := fun after => (ended_cons (c := ',') (by decide) after).blanks_append hds
    have hvalue := fun after => (value_blanks_append (fuel + 1) hcs _).trans
      (value_of_spells h fuel (by omega) (hended after))
    simp only [spelt_cons, spelt_append, List.cons_append, List.append_assoc] at hmembers ⊢
    exact members_more hkey hbs hds hes (hvalue _) hmembers

end

end Scan

/-- A text that the grammar allows is read as its tree, and nothing follows it. -/
theorem Document.read_of_spells {text : String} {n : Node} (h : SpellsText text.toList n) :
    Document.read (Text.pieces text) = ⟨n, false⟩ := by
  have hpieces : Text.pieces text = spelt text.toList := rfl
  rw [hpieces]
  generalize text.toList = cs at h
  cases h with
  | @between bs text cs n hbs h hcs =>
    have hlength : text.length ≤ 2 * (spelt (bs ++ (text ++ cs))).length + 1 + 1 := by
      simp only [spelt, List.length_map, List.length_append]
      omega
    have hscan := Scan.value_of_spells h _ hlength (ended_nil.blanks_append hcs)
    rw [← Scan.value_blanks_append _ hbs, List.append_nil, ← spelt_append, ← spelt_append] at hscan
    have hblanks := Scan.skipBlanks_append hcs []
    rw [List.append_nil] at hblanks
    rw [Document.read, hscan]
    simp only [hblanks]
    rfl

end MovieCatalog.Json
