import MovieCatalog.Json.Scan

/-!
# Reading values of a wanted shape

A decoder walks a syntax tree from left to right and reports the first fault. Records are described
by their fields: a record is read from an object, whose unknown members are passed over, or from an
array of the fields in order. A field with a default may be left out, the others may not, and no
field may be given twice.
-/

namespace MovieCatalog.Json

/-- How a value is read: the number of levels that may still be entered, and whether the text has
been read once already and is now read from memory, where surplus elements of a record are
counted. -/
structure Context where
  room : Nat
  fromMemory : Bool
deriving DecidableEq

namespace Context

/-- How a text is read from its beginning: at most 127 levels may be entered. -/
def start : Context := ⟨127, false⟩

/-- The context inside an array or an object. -/
def enter (ctx : Context) : Except Fault Context :=
  match ctx.room with
  | 0 => .error .tooDeep
  | room + 1 => .ok { ctx with room }

end Context

/-- A reader of values of type `α`. -/
abbrev Decoder (α : Type) := Context → Node → Except Fault α

namespace Decoder

/-- Any value. -/
def json : Decoder Json := fun ctx n => n.value ctx.room

/-- A string. -/
def string : Decoder String := fun _ n =>
  match n with
  | .string l => l.read
  | n => n.mismatch .text

/-- A number. -/
def number (wanted : Wanted) : Decoder Number := fun _ n =>
  match n with
  | .number l => l.read
  | n => n.mismatch wanted

/-- An integer from `least` up to below `bound`. -/
def integer (wanted : Wanted) (least bound : Int) : Decoder Int := fun ctx n => do
  match ← number wanted ctx n with
  | .integer i _ =>
    if least ≤ i ∧ i < bound then return i else throw (.invalidInteger i wanted)
  | .float x finite => throw (.invalidType (.number (.float x finite)) wanted)

/-- An unsigned integer of 64 bits. -/
def natural64 : Decoder UInt64 := fun ctx n => do
  return .ofNat (← integer .natural64 0 Word.size64 ctx n).toNat

/-- An unsigned integer of 32 bits. -/
def natural32 : Decoder UInt32 := fun ctx n => do
  return .ofNat (← integer .natural32 0 Word.size32 ctx n).toNat

/-- A signed integer of 64 bits. -/
def integer64 : Decoder Int64 := fun ctx n => do
  return .ofInt (← integer .integer64 (-Word.half64) Word.half64 ctx n)

/-- A floating-point number; an integer stands for the nearest one. -/
def double : Decoder Binary64 := fun ctx n => do
  return (← number .double ctx n).toBinary64

/-- A value that may be `null`. -/
def nullable {α : Type} (d : Decoder α) : Decoder (Option α) := fun ctx n =>
  match n with
  | .null => .ok none
  | n => some <$> d ctx n

/-- The elements of an array. -/
def elements {α : Type} (d : Decoder α) (ctx : Context) : List Node → Except Fault (List α)
  | [] => .ok []
  | v :: rest => do
    let a ← d ctx v
    return a :: (← elements d ctx rest)

/-- An array of any length. -/
def list {α : Type} (d : Decoder α) : Decoder (List α) := fun ctx n =>
  match n with
  | .array items ending => do
    let inside ← ctx.enter
    let values ← elements d inside items
    ending.read
    return values
  | n => n.mismatch .sequence

/-- The members of an object, all read alike. -/
def entries {α : Type} (d : Decoder α) (ctx : Context) :
    List (StringLexeme × Node) → Except Fault (List (String × α))
  | [] => .ok []
  | (k, v) :: rest => do
    let key ← k.read
    let a ← d ctx v
    return (key, a) :: (← entries d ctx rest)

/-- An object as a table: its members in ascending order of their keys, the last one of each key. -/
def table {α : Type} (d : Decoder α) : Decoder (List (String × α)) := fun ctx n =>
  match n with
  | .object members ending => do
    let inside ← ctx.enter
    let values ← entries d inside members
    ending.read
    return sortMembers values
  | n => n.mismatch .table

/-- Nothing but `null`, which stands for a value known beforehand. -/
def null {α : Type} (a : α) : Decoder α := fun _ n =>
  match n with
  | .null => .ok a
  | n => n.mismatch .null

end Decoder

/-- One of several variants of a value: its name, the value if the name may stand alone, and the
reader of the content behind the name. -/
structure Variant (α : Type) where
  name : String
  bare : Option α
  content : Decoder α

namespace Variant

/-- A variant with content. -/
def withContent {α : Type} (name : String) (content : Decoder α) : Variant α :=
  ⟨name, none, content⟩

/-- A variant that is but a name. -/
def plain {α : Type} (name : String) (a : α) : Variant α :=
  ⟨name, some a, .null a⟩

/-- The variant with a given name. -/
def find {α : Type} (variants : List (Variant α)) (name : String) : Except Fault (Variant α) :=
  match variants.find? (·.name = name) with
  | some v => .ok v
  | none => .error (.unknownVariant name (variants.map (·.name)))

end Variant

/-- One of several variants: an object whose only member names the variant and holds its content, or
a bare name. A name that lacks its content is understood before the lack is noticed. -/
def Decoder.oneOf {α : Type} (variants : List (Variant α)) : Decoder α := fun ctx n =>
  match n with
  | .string l => do
    match (← Variant.find variants (← l.read)).bare with
    | some a => return a
    | none => throw (.invalidType .bareVariant .variantContent)
  | .object ((key, content) :: rest) ending => do
    let inside ← ctx.enter
    let variant ← Variant.find variants (← key.read)
    let a ← variant.content inside content
    match rest, ending with
    | [], .closed => return a
    | [], .textEnd => throw (.ended .table)
    | _, _ => throw .expectedValue
  | .object [] ending => do
    let _ ← ctx.enter
    match ending with
    | .closed => throw .expectedValue
    | .noColon key atEnd =>
      let _ ← Variant.find variants (← key.read)
      throw (colonFault atEnd)
    | ending =>
      ending.read
      throw .expectedValue
  | .missing => .error (.ended .value)
  | _ => .error .expectedValue

/-- A field of a record: its name, how it is read, and what stands for it when it is left out. -/
structure Field (α : Type) where
  name : String
  decode : Decoder α
  default : Option α

/-- A field that must be given. -/
def Field.required {α : Type} (name : String) (decode : Decoder α) : Field α :=
  ⟨name, decode, none⟩

/-- A field that may be left out. -/
def Field.withDefault {α : Type} (name : String) (decode : Decoder α) (default : α) : Field α :=
  ⟨name, decode, some default⟩

/-- The fields of a record, in order of declaration; `τ` is the product of their types. -/
inductive Fields : Type → Type 1 where
  | nil : Fields Unit
  | cons {α τ : Type} (field : Field α) (rest : Fields τ) : Fields (α × τ)

namespace Fields

/-- A place for the value of each field. -/
def Slots : {τ : Type} → Fields τ → Type
  | _, .nil => Unit
  | _, .cons (α := α) _ rest => Option α × Slots rest

/-- The place for the first field, and those for the rest. -/
def Slots.uncons {α τ : Type} {field : Field α} {rest : Fields τ}
    (slots : (Fields.cons field rest).Slots) : Option α × rest.Slots := slots

/-- The number of fields. -/
def count : {τ : Type} → Fields τ → Nat
  | _, .nil => 0
  | _, .cons _ rest => rest.count + 1

/-- No field has been read. -/
def empty : {τ : Type} → (fs : Fields τ) → fs.Slots
  | _, .nil => ()
  | _, .cons _ rest => (none, rest.empty)

/-- Faults at the second occurrence of a field. -/
def checkNew (name : String) : {τ : Type} → (fs : Fields τ) → fs.Slots → Except Fault Unit
  | _, .nil, _ => .ok ()
  | _, .cons field rest, slots =>
    if name = field.name then
      match slots.uncons.1 with
      | some _ => .error (.duplicateField name)
      | none => .ok ()
    else rest.checkNew name slots.uncons.2

/-- Reads a member into the field that it names; a member that names none is passed over. -/
def put (ctx : Context) (name : String) (content : Node) :
    {τ : Type} → (fs : Fields τ) → fs.Slots → Except Fault fs.Slots
  | _, .nil, () => do
    content.skip
    return ()
  | _, .cons field rest, slots =>
    if name = field.name then do
      let a ← field.decode ctx content
      return (some a, slots.uncons.2)
    else do
      let others ← rest.put ctx name content slots.uncons.2
      return (slots.uncons.1, others)

/-- The record of the values read, with defaults for the fields left out. -/
def finish : {τ : Type} → (fs : Fields τ) → fs.Slots → Except Fault τ
  | _, .nil, () => .ok ()
  | _, .cons field rest, slots =>
    match slots.uncons.1 <|> field.default with
    | some a => do
      let others ← rest.finish slots.uncons.2
      return (a, others)
    | none => .error (.missingField field.name)

/-- Reads members one after the other. -/
def putAll {τ : Type} (fs : Fields τ) (ctx : Context) :
    List (StringLexeme × Node) → fs.Slots → Except Fault fs.Slots
  | [], slots => .ok slots
  | (k, v) :: rest, slots => do
    let name ← k.read
    fs.checkNew name slots
    fs.putAll ctx rest (← fs.put ctx name v slots)

/-- The fault met behind the last member. A field that is given twice is noticed at its key. -/
def close {τ : Type} (fs : Fields τ) (slots : fs.Slots) : ObjectEnd → Except Fault Unit
  | .noColon key atEnd => do
    fs.checkNew (← key.read) slots
    throw (colonFault atEnd)
  | ending => ending.read

/-- Reads the fields from the elements of an array, in order, and returns the surplus elements.
`index` elements have been read. -/
def takeAll (record : String) (total : Nat) (ctx : Context) (ending : ArrayEnd) :
    {τ : Type} → Fields τ → (index : Nat) → List Node → Except Fault (τ × List Node)
  | _, .nil, _, surplus => .ok ((), surplus)
  | _, .cons field rest, index, v :: items => do
    let a ← field.decode ctx v
    let (as, surplus) ← takeAll record total ctx ending rest (index + 1) items
    return ((a, as), surplus)
  | _, .cons field rest, index, [] => do
    ending.read
    match field.default with
    | some a =>
      let (as, surplus) ← takeAll record total ctx ending rest (index + 1) []
      return ((a, as), surplus)
    | none => throw (.invalidLength index (.record record total))

/-- The fault met behind the last field in an array. -/
def closeArray (total : Nat) (ctx : Context) (surplus : List Node) (ending : ArrayEnd) :
    Except Fault Unit :=
  if surplus.isEmpty then ending.close
  else if ctx.fromMemory then .error (.invalidLength (total + surplus.length) (.elements total))
  else .error .trailingText

/-- Reads a record. -/
def decode {τ : Type} (record : String) (fs : Fields τ) : Decoder τ := fun ctx n =>
  match n with
  | .object members ending => do
    let inside ← ctx.enter
    let slots ← fs.putAll inside members fs.empty
    fs.close slots ending
    fs.finish slots
  | .array items ending => do
    let inside ← ctx.enter
    let (values, surplus) ← takeAll record fs.count inside ending fs 0 items
    closeArray fs.count ctx surplus ending
    return values
  | n => n.mismatch (.record record)

end Fields

/-- Reads a whole text. -/
def Decoder.read {α : Type} (d : Decoder α) (text : Rest) : Except Fault α := do
  let document := Document.read text
  let a ← d .start document.root
  if document.more then throw .trailingText
  return a

/-- Reads a whole text given as a string. -/
def Decoder.readString {α : Type} (d : Decoder α) (text : String) : Except Fault α :=
  d.read (Text.pieces text)

/-- Reads a whole text given as octets. -/
def Decoder.readOctets {α : Type} (d : Decoder α) (octets : List UInt8) : Except Fault α :=
  d.read (Text.Utf8.pieces octets)

end MovieCatalog.Json
