import MovieCatalog.Json.Scan

/-!
# The grammar of JSON

Which texts are JSON, and as which tree each of them is spelt, is said here without a scanner. There
is one relation for each kind of token and of value, and one way to derive it for each form that the
kind may take: blanks between tokens, all spellings of a power of ten, characters as themselves or
escaped. A text as a whole is a value between blanks (`SpellsText`). What strings and numbers mean
does not count.
-/

namespace MovieCatalog.Json

/-! ## Numbers -/

/-- One decimal digit or more. -/
structure Digits (ds : List Char) : Prop where
  ne_nil : ds ≠ []
  isDigit : ∀ c ∈ ds, c.isDigit = true

/-- The digits before the point. -/
structure WholePart (ds : List Char) : Prop extends Digits ds where
  no_leading_zero : ∀ c rest, ds ≠ '0' :: c :: rest

/-- A point with digits behind it, or neither. -/
inductive SpellsFraction : List Char → List Char → Prop
  | absent : SpellsFraction [] []
  | point {ds : List Char} (h : Digits ds) : SpellsFraction ('.' :: ds) ds

/-- The sign of a power of ten, negative or not. -/
inductive SpellsSign : List Char → Bool → Prop
  | absent : SpellsSign [] false
  | plus : SpellsSign ['+'] false
  | minus : SpellsSign ['-'] true

/-- The integer that digits with a sign are. -/
def signedValue (negative : Bool) (digits : List Char) : Int :=
  if negative then -(Nat.ofDigitChars 10 digits 0 : Int) else Nat.ofDigitChars 10 digits 0

/-- A power of ten, or nothing. -/
inductive SpellsPower : List Char → Option Int → Prop
  | absent : SpellsPower [] none
  | letter {c : Char} {sign ds : List Char} {negative : Bool} (hc : c = 'e' ∨ c = 'E')
      (hsign : SpellsSign sign negative) (hds : Digits ds) :
      SpellsPower (c :: (sign ++ ds)) (some (signedValue negative ds))

/-- The lexeme of a number with given parts: it is whole without a point and a power of ten. -/
def NumberLexeme.ofParts (negative : Bool) (whole fraction : List Char) (power : Option Int) :
    NumberLexeme :=
  match power with
  | some p => .scaled ⟨negative, whole, fraction, p⟩
  | none =>
    if fraction.isEmpty then .whole negative whole else .scaled ⟨negative, whole, fraction, 0⟩

/-- The text behind the sign of a number. -/
inductive SpellsUnsigned (negative : Bool) : List Char → NumberLexeme → Prop
  | parts {whole point fraction letter : List Char} {power : Option Int} (hwhole : WholePart whole)
      (hfraction : SpellsFraction point fraction) (hpower : SpellsPower letter power) :
      SpellsUnsigned negative (whole ++ (point ++ letter)) (.ofParts negative whole fraction power)

/-- A number. -/
inductive SpellsNumber : List Char → NumberLexeme → Prop
  | minus {text : List Char} {l : NumberLexeme} (h : SpellsUnsigned true text l) :
      SpellsNumber ('-' :: text) l
  | plain {text : List Char} {l : NumberLexeme} (h : SpellsUnsigned false text l) :
      SpellsNumber text l

/-! ## Strings -/

/-- A unit of a string: a character that is no quote, no backslash and no control character, or an
escape. -/
inductive SpellsUnit : List Char → StringUnit → Prop
  | plain {c : Char} (hquote : c ≠ '"') (hback : c ≠ '\\') (hcontrol : ¬ c.toNat < 0x20) :
      SpellsUnit [c] (.char c)
  | letter {c d : Char} (h : Scan.unescape? c = some d) : SpellsUnit ['\\', c] (.char d)
  | code {a b c d : Char} {n : Nat}
      (h : Scan.hexCode? (.scalar a) (.scalar b) (.scalar c) (.scalar d) = some n) :
      SpellsUnit ['\\', 'u', a, b, c, d] (.code n)

/-- Units one after the other. -/
inductive SpellsUnits : List Char → List StringUnit → Prop
  | nil : SpellsUnits [] []
  | cons {text rest : List Char} {u : StringUnit} {us : List StringUnit} (hu : SpellsUnit text u)
      (hus : SpellsUnits rest us) : SpellsUnits (text ++ rest) (u :: us)

/-- A string in its quotes. -/
inductive SpellsString : List Char → StringLexeme → Prop
  | quoted {text : List Char} {us : List StringUnit} (h : SpellsUnits text us) :
      SpellsString ('"' :: (text ++ ['"'])) ⟨us, .closed⟩

/-! ## Values -/

/-- Blanks, of which there may be any number between two tokens. -/
def Blanks (bs : List Char) : Prop :=
  ∀ c ∈ bs, c ∈ [' ', '\t', '\n', '\r']

mutual

/-- A value, as the tree that it is. -/
inductive Spells : List Char → Node → Prop
  | null : Spells "null".toList .null
  | true : Spells "true".toList (.boolean true)
  | false : Spells "false".toList (.boolean false)
  | number {text : List Char} {l : NumberLexeme} (h : SpellsNumber text l) :
      Spells text (.number l)
  | string {text : List Char} {l : StringLexeme} (h : SpellsString text l) :
      Spells text (.string l)
  | emptyArray {bs : List Char} (hbs : Blanks bs) :
      Spells ('[' :: (bs ++ [']'])) (.array [] .closed)
  | array {bs text : List Char} {items : List Node} (hbs : Blanks bs) (h : SpellsItems text items) :
      Spells ('[' :: (bs ++ (text ++ [']']))) (.array items .closed)
  | emptyObject {bs : List Char} (hbs : Blanks bs) :
      Spells ('\x7b' :: (bs ++ ['\x7d'])) (.object [] .closed)
  | object {bs text : List Char} {members : List (StringLexeme × Node)} (hbs : Blanks bs)
      (h : SpellsMembers text members) :
      Spells ('\x7b' :: (bs ++ (text ++ ['\x7d']))) (.object members .closed)

/-- The elements of an array, with commas between them. -/
inductive SpellsItems : List Char → List Node → Prop
  | last {text bs : List Char} {n : Node} (h : Spells text n) (hbs : Blanks bs) :
      SpellsItems (text ++ bs) [n]
  | more {text bs cs rest : List Char} {n : Node} {ns : List Node} (h : Spells text n)
      (hbs : Blanks bs) (hcs : Blanks cs) (hmore : SpellsItems rest ns) :
      SpellsItems (text ++ (bs ++ ',' :: (cs ++ rest))) (n :: ns)

/-- The members of an object, with commas between them. -/
inductive SpellsMembers : List Char → List (StringLexeme × Node) → Prop
  | last {quoted bs cs text ds : List Char} {key : StringLexeme} {n : Node}
      (hkey : SpellsString quoted key) (hbs : Blanks bs) (hcs : Blanks cs) (h : Spells text n)
      (hds : Blanks ds) : SpellsMembers (quoted ++ (bs ++ ':' :: (cs ++ (text ++ ds)))) [(key, n)]
  | more {quoted bs cs text ds es rest : List Char} {key : StringLexeme} {n : Node}
      {members : List (StringLexeme × Node)}
      (hkey : SpellsString quoted key) (hbs : Blanks bs) (hcs : Blanks cs) (h : Spells text n)
      (hds : Blanks ds) (hes : Blanks es) (hmore : SpellsMembers rest members) :
      SpellsMembers (quoted ++ (bs ++ ':' :: (cs ++ (text ++ (ds ++ ',' :: (es ++ rest))))))
        ((key, n) :: members)

end

/-- A whole text: a value between blanks. -/
inductive SpellsText : List Char → Node → Prop
  | between {bs text cs : List Char} {n : Node} (hbs : Blanks bs) (h : Spells text n)
      (hcs : Blanks cs) : SpellsText (bs ++ (text ++ cs)) n

end MovieCatalog.Json
