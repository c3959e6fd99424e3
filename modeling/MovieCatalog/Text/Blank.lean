/-!
# Blank characters and trimming

A character is blank when Unicode gives it the property White_Space. The property has twenty-five
code points; neither the zero-width space, the byte order mark nor the separators below the space
are among them. Trimming takes the blanks away from the ends of a text (`unpadded_trim`), and does
nothing where there are none (`Unpadded.trim_eq`).
-/

namespace MovieCatalog.Text

/-- The code points with the property White_Space, as closed ranges in ascending order. -/
def blankRanges : List (Nat × Nat) :=
  [(0x09, 0x0D), (0x20, 0x20), (0x85, 0x85), (0xA0, 0xA0), (0x1680, 0x1680), (0x2000, 0x200A),
    (0x2028, 0x2029), (0x202F, 0x202F), (0x205F, 0x205F), (0x3000, 0x3000)]

/-- A character with the property White_Space. -/
def isBlank (c : Char) : Bool :=
  blankRanges.any fun r => r.1 ≤ c.toNat && c.toNat ≤ r.2

/-- The text without the blank characters at its two ends. -/
def trim (s : List Char) : List Char :=
  ((s.dropWhile isBlank).reverse.dropWhile isBlank).reverse

/-- Nothing is left behind the blanks if there is nothing else. -/
theorem dropWhile_isBlank_eq_nil_iff {s : List Char} :
    s.dropWhile isBlank = [] ↔ ∀ c ∈ s, isBlank c = true := by
  induction s with
  | nil => simp
  | cons c rest ih =>
    cases hc : isBlank c with
    | true => simp [hc, ih]
    | false => simp [hc]

/-- A text has nothing left when all its characters are blank. -/
theorem trim_eq_nil_iff {s : List Char} : trim s = [] ↔ ∀ c ∈ s, isBlank c = true := by
  rw [trim, List.reverse_eq_nil_iff, dropWhile_isBlank_eq_nil_iff]
  constructor
  · intro h
    rw [← dropWhile_isBlank_eq_nil_iff]
    cases hs : s.dropWhile isBlank with
    | nil => rfl
    | cons d rest =>
      have hd := List.head_dropWhile_not isBlank (l := s) (by simp [hs])
      simp only [hs, List.head_cons] at hd
      exact absurd (h d (by simp [hs])) (by simp [hd])
  · intro h
    simp [dropWhile_isBlank_eq_nil_iff.2 h]

/-- Nothing that is trimmed was not there before. -/
theorem mem_of_mem_trim {s : List Char} {c : Char} (h : c ∈ trim s) : c ∈ s := by
  have hback := (List.dropWhile_suffix isBlank).mem (List.mem_reverse.1 h)
  exact (List.dropWhile_suffix isBlank).mem (List.mem_reverse.1 hback)

/-- No blank stands at either end of a text. -/
def Unpadded (s : List Char) : Prop :=
  (∀ c, s.head? = some c → isBlank c = false) ∧ ∀ c, s.getLast? = some c → isBlank c = false

/-- What is left behind the blanks does not begin with one. -/
theorem head?_dropWhile_isBlank {s : List Char} {c : Char}
    (h : (s.dropWhile isBlank).head? = some c) : isBlank c = false := by
  have hnot := List.head?_dropWhile_not isBlank s
  rwa [h] at hnot

/-- What is trimmed is unpadded. -/
theorem unpadded_trim (s : List Char) : Unpadded (trim s) := by
  constructor
  · intro c h
    rw [trim, List.head?_reverse] at h
    -- what is dropped at the back leaves the front as it was
    obtain ⟨back, hback⟩ := List.dropWhile_suffix isBlank (l := (s.dropWhile isBlank).reverse)
    have hlast : (s.dropWhile isBlank).reverse.getLast? = some c := by
      rw [← hback, List.getLast?_append, h]
      rfl
    rw [List.getLast?_reverse] at hlast
    exact head?_dropWhile_isBlank hlast
  · intro c h
    rw [trim, List.getLast?_reverse] at h
    exact head?_dropWhile_isBlank h

/-- A text that does not begin with a blank is left as it is. -/
theorem dropWhile_isBlank_eq_self {s : List Char}
    (h : ∀ c, s.head? = some c → isBlank c = false) : s.dropWhile isBlank = s := by
  cases s with
  | nil => rfl
  | cons c rest => exact List.dropWhile_cons_of_neg (by simp [h c rfl])

/-- An unpadded text is left as it is. -/
theorem Unpadded.trim_eq {s : List Char} (h : Unpadded s) : trim s = s := by
  have hback : ∀ c, s.reverse.head? = some c → isBlank c = false := by
    intro c hc
    rw [List.head?_reverse] at hc
    exact h.2 c hc
  rw [trim, dropWhile_isBlank_eq_self h.1, dropWhile_isBlank_eq_self hback, List.reverse_reverse]

/-- A text without blanks is unpadded. -/
theorem unpadded_of_forall {s : List Char} (h : ∀ c ∈ s, isBlank c = false) : Unpadded s :=
  ⟨fun c hc => h c (List.mem_of_head? hc), fun c hc => h c (List.mem_of_getLast? hc)⟩

/-- `trim` on strings. -/
def trimmed (s : String) : String :=
  String.ofList (trim s.toList)

/-- A text that holds no character but blank ones. -/
def AllBlank (s : String) : Prop :=
  ∀ c ∈ s.toList, isBlank c = true

instance (s : String) : Decidable (AllBlank s) :=
  List.decidableBAll (fun c => isBlank c = true) s.toList

end MovieCatalog.Text
