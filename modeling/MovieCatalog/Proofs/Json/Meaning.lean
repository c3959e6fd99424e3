import MovieCatalog.Proofs.Json.Members
import Mathlib.Data.List.Forall2

/-!
# What values mean

What a string, a number or an array means, without a reader (`Node.MeansText`, `Node.MeansNumber`,
`Node.MeansItems`), and what stands for a part of a record that may be absent
(`Node.Stated`), or absent or `null` (`Node.Known`). The readers find nothing but what is meant
(`Decoder.SoundFor`), and read the elements of an array one after the other
(`Decoder.SoundFor.list`).
-/

namespace MovieCatalog.Json

namespace Node

/-- The value is a string that means the text. -/
inductive MeansText : Node → String → Prop
  | string {l : StringLexeme} {s : String} (h : l.read = .ok s) : MeansText (.string l) s

/-- The value is an array of which the elements mean the given things, in order. -/
inductive MeansItems {α : Type} (means : Node → α → Prop) : Node → List α → Prop
  | array {items : List Node} {ending : ArrayEnd} {as : List α}
      (h : List.Forall₂ means items as) : MeansItems means (.array items ending) as

/-- Items that mean the images of values mean these images as a list. -/
theorem MeansItems.map {α β : Type} {means : Node → β → Prop} {f : α → β} {n : Node} {as : List α}
    (h : MeansItems (fun n a => means n (f a)) n as) : MeansItems means n (as.map f) := by
  cases h with
  | array h => exact .array (List.forall₂_map_right_iff.2 h)

/-- What is so of whatever an element may mean is so of all that is meant. -/
theorem MeansItems.forall_mem {α : Type} {means : Node → α → Prop} {P : α → Prop} {n : Node}
    {as : List α} (h : MeansItems means n as) (hP : ∀ n a, means n a → P a) : ∀ a ∈ as, P a := by
  cases h with
  | array h =>
    have hboth := h.flip.imp (S := fun a n => P a ∧ means n a) fun a n hmeans =>
      ⟨hP n a hmeans, hmeans⟩
    exact ((List.forall₂_and_left _ _).1 hboth).1

/-- The value is an array of strings that mean the texts, in order. -/
abbrev MeansTexts : Node → List String → Prop := MeansItems MeansText

/-- The value is a numeral that means the number. -/
inductive MeansNumber : Node → Number → Prop
  | number {l : NumberLexeme} {x : Number} (h : l.read = .ok x) : MeansNumber (.number l) x

/-- The value is an unsigned integer. -/
def MeansNatural (n : Node) (k : UInt64) : Prop :=
  ∃ i held, n.MeansNumber (.integer i held) ∧ (k.toNat : Int) = i

/-- The value is a signed integer. -/
def MeansInteger (n : Node) (k : Int64) : Prop :=
  ∃ i held, n.MeansNumber (.integer i held) ∧ k.toInt = i

/-- The value is a number, of which the floating-point number is the nearest one. -/
def MeansDouble (n : Node) (x : Binary64) : Prop :=
  ∃ number : Number, n.MeansNumber number ∧ x = number.toBinary64

section
variable {α : Type} (means : Node → α → Prop) (zero : α)

/-- What stands for a part that may be absent. -/
inductive Stated : Option Node → α → Prop
  | absent : Stated none zero
  | given {n : Node} {a : α} (h : means n a) : Stated (some n) a

/-- What stands for a part that may be absent or `null`. -/
inductive Known : Option Node → α → Prop
  | absent : Known none zero
  | null : Known (some .null) zero
  | given {n : Node} {a : α} (h : means n a) : Known (some n) a

variable {means zero}

/-- What is made of something stated is stated too. -/
theorem Stated.map {β : Type} {means' : Node → β → Prop} (f : α → β) {part : Option Node} {a : α}
    (h : Stated means zero part a) (hmeans : ∀ n a, means n a → means' n (f a)) :
    Stated means' (f zero) part (f a) := by
  cases h with
  | absent => exact .absent
  | given h => exact .given (hmeans _ _ h)

/-- What is stated of a part of a part. -/
theorem Stated.bind {part : Option Node} {a : α} {f : Node → Option Node}
    (h : Stated (fun n a => Stated means zero (f n) a) zero part a) :
    Stated means zero (part.bind f) a := by
  cases h with
  | absent => exact .absent
  | given h => exact h

end

end Node

namespace Decoder

/-- The decoder finds only what is meant. -/
def SoundFor {α : Type} (d : Decoder α) (means : Node → α → Prop) : Prop :=
  ∀ ctx n a, d ctx n = .ok a → means n a

/-- What is read as a text is a string that spells it. -/
theorem soundFor_string : string.SoundFor Node.MeansText := by
  intro ctx n s h
  cases n with
  | string l => exact .string h
  | _ => exact absurd h Node.mismatch_ne_ok

/-- What is read as a number is a number that means it. -/
theorem soundFor_number (wanted : Wanted) : (number wanted).SoundFor Node.MeansNumber := by
  intro ctx n x h
  cases n with
  | number l => exact .number h
  | _ => exact absurd h Node.mismatch_ne_ok

/-- An integer that is read is meant, and lies between the bounds. -/
theorem soundFor_integer (wanted : Wanted) (least bound : Int) :
    (integer wanted least bound).SoundFor fun n i =>
      (∃ held, n.MeansNumber (.integer i held)) ∧ least ≤ i ∧ i < bound := by
  intro ctx n i h
  obtain ⟨x, hx, h⟩ := ok_of_bind h
  cases x with
  | integer j held =>
    dsimp only at h
    split at h
    · next hbounds =>
      cases h
      exact ⟨⟨held, soundFor_number wanted ctx n _ hx⟩, hbounds⟩
    · cases h
  | float x finite => cases h

theorem soundFor_natural64 : natural64.SoundFor Node.MeansNatural := by
  intro ctx n k h
  obtain ⟨i, hi, h⟩ := ok_of_bind h
  obtain ⟨⟨held, hmeans⟩, hbounds⟩ := soundFor_integer _ _ _ ctx n i hi
  cases h
  refine ⟨i, held, hmeans, ?_⟩
  rw [UInt64.toNat_ofNat']
  simp only [Word.size64] at hbounds
  omega

theorem soundFor_integer64 : integer64.SoundFor Node.MeansInteger := by
  intro ctx n k h
  obtain ⟨i, hi, h⟩ := ok_of_bind h
  obtain ⟨⟨held, hmeans⟩, hleast, hbound⟩ := soundFor_integer _ _ _ ctx n i hi
  cases h
  exact ⟨i, held, hmeans, Int64.toInt_ofInt_of_le hleast hbound⟩

/-- What is read in floating point is a number that means this value, an integer one included. -/
theorem soundFor_double : double.SoundFor Node.MeansDouble := by
  intro ctx n x h
  obtain ⟨number, hnumber, h⟩ := ok_of_bind h
  cases h
  exact ⟨number, soundFor_number .double ctx n number hnumber, rfl⟩

/-- Elements are read one by one, each from the node in its place. -/
theorem forall₂_of_elements {α : Type} {d : Decoder α} {means : Node → α → Prop}
    (hd : d.SoundFor means) {ctx : Context} {ns : List Node} {as : List α}
    (h : elements d ctx ns = .ok as) : List.Forall₂ means ns as := by
  induction ns generalizing as with
  | nil =>
    cases h
    exact .nil
  | cons n ns ih =>
    obtain ⟨a, ha, h⟩ := ok_of_bind h
    obtain ⟨bs, hbs, h⟩ := ok_of_bind h
    cases h
    exact .cons (hd ctx n a ha) (ih hbs)

/-- The elements of an array are read one after the other. -/
theorem SoundFor.list {α : Type} {d : Decoder α} {means : Node → α → Prop}
    (hd : d.SoundFor means) : (list d).SoundFor (Node.MeansItems means) := by
  intro ctx n as h
  cases n with
  | array items ending =>
    obtain ⟨inside, -, h⟩ := ok_of_bind h
    obtain ⟨bs, helements, h⟩ := ok_of_bind h
    obtain ⟨_, -, h⟩ := ok_of_bind h
    cases h
    exact .array (forall₂_of_elements hd helements)
  | _ => exact absurd h Node.mismatch_ne_ok

/-- What is read as texts is an array of strings that spell them. -/
theorem soundFor_strings : (Decoder.list string).SoundFor Node.MeansTexts :=
  soundFor_string.list

section
variable {α : Type} {d : Decoder α} {means : Node → α → Prop} {zero : α} {ctx : Context}
  {part : Option Node}

/-- A field with a default has what its part means, or the default. -/
theorem SoundFor.stated {a : α} (hd : d.SoundFor means)
    (h : (part = none ∧ some zero = some a) ∨ ∃ n, part = some n ∧ d ctx n = .ok a) :
    Node.Stated means zero part a := by
  rcases h with ⟨rfl, h⟩ | ⟨n, rfl, hread⟩
  · cases h
    exact .absent
  · exact .given (hd ctx n a hread)

/-- What is made of a field that may be `null` is made of what its part means, or of nothing. -/
theorem SoundFor.known_map {β : Type} {f : Option α → β} {means : Node → β → Prop} {o : Option α}
    (hd : d.SoundFor fun n a => means n (f (some a)))
    (h : (part = none ∧ some none = some o) ∨ ∃ n, part = some n ∧ nullable d ctx n = .ok o) :
    Node.Known means (f none) part (f o) := by
  rcases h with ⟨rfl, h⟩ | ⟨n, rfl, hread⟩
  · cases h
    exact .absent
  · unfold nullable at hread
    split at hread
    · cases hread
      exact .null
    · obtain ⟨a, ha, hread⟩ := ok_of_bind hread
      cases hread
      exact .given (hd ctx n a ha)

/-- A field that may be `null` has what its part means, or zero. -/
theorem SoundFor.known {o : Option α} (hd : d.SoundFor means)
    (h : (part = none ∧ some none = some o) ∨ ∃ n, part = some n ∧ nullable d ctx n = .ok o) :
    Node.Known means zero part (o.getD zero) :=
  SoundFor.known_map (f := (·.getD zero)) hd h

end

end Decoder

/-- A record takes its defaults where there is no part for any field. -/
theorem Fields.takes_of_finish_empty {ctx : Context} {part : String → Option Node} {τ : Type}
    {fs : Fields τ} {as : τ} (hpart : ∀ name ∈ fs.names, part name = none)
    (h : fs.finish fs.empty = .ok as) : fs.Takes ctx part as := by
  induction fs with
  | nil => trivial
  | cons field rest ih =>
    obtain ⟨hfirst, hrest⟩ := List.forall_mem_cons.1 hpart
    rw [finish_cons] at h
    split at h
    · next a hdefault =>
      obtain ⟨bs, hbs, h⟩ := ok_of_bind h
      cases h
      exact ⟨.inl ⟨hfirst, hdefault⟩, ih hrest hbs⟩
    · cases h

end MovieCatalog.Json
