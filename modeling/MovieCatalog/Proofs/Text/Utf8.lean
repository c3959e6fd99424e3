import MovieCatalog.Text.Utf8

/-!
# Encoded texts read back

The octets of a character are read as this character alone, whatever was found before them
(`Utf8.foldl_step_utf8EncodeChar`). The first octet says how many others follow and carries the
upper bits; each other one carries six bits more. The narrowed range behind some first octets is
never left, since a character is written as short as it can be and is no surrogate. So the octets of
a text have no stray parts (`Utf8.pieces_encode`), and the lossy reading loses nothing of them
(`Utf8.lossy_encode`).
-/

namespace MovieCatalog.Text.Utf8

/-- The number of a character is neither a surrogate nor above the last code point. -/
theorem toNat_valid (c : Char) :
    c.toNat < 0xD800 ∨ (0xDFFF < c.toNat ∧ c.toNat < 0x110000) := c.valid

theorem toNat_ofNat_of_lt {n : Nat} (h : n < 256) : (UInt8.ofNat n).toNat = n := by
  rw [UInt8.toNat_ofNat', Nat.mod_eq_of_lt h]

/-! ## First octets -/

/-- An octet below `0x80` is a character of its own. -/
theorem begin_one {n : Nat} (h : n < 0x80) :
    begin (UInt8.ofNat n) = .inl (.scalar (Char.ofNat n)) := by
  rw [begin, toNat_ofNat_of_lt (by omega)]
  exact if_pos h

/-- The first one of two octets. -/
theorem begin_two {n : Nat} (hlow : 2 ≤ n) (hhigh : n < 32) :
    begin (UInt8.ofNat (n + 192)) = .inr ⟨n, continuation, [], [UInt8.ofNat (n + 192)]⟩ := by
  rw [begin, toNat_ofNat_of_lt (by omega)]
  dsimp only
  rw [if_neg (by omega), if_neg (by omega), if_pos (by omega), Nat.add_sub_cancel]

/-- The range of the octet behind the first one of three. -/
def secondOfThree (n : Nat) : UInt8 × UInt8 :=
  if n = 0 then (0xA0, 0xBF) else if n = 13 then (0x80, 0x9F) else continuation

/-- The first one of three octets. -/
theorem begin_three {n : Nat} (h : n < 16) :
    begin (UInt8.ofNat (n + 224))
      = .inr ⟨n, secondOfThree n, [continuation], [UInt8.ofNat (n + 224)]⟩ := by
  rw [begin, toNat_ofNat_of_lt (by omega)]
  dsimp only
  rw [if_neg (by omega), if_neg (by omega), if_neg (by omega), if_pos (by omega),
    Nat.add_sub_cancel]
  simp only [secondOfThree, Nat.add_eq_right, Nat.reduceEqDiff]

/-- The range of the octet behind the first one of four. -/
def secondOfFour (n : Nat) : UInt8 × UInt8 :=
  if n = 0 then (0x90, 0xBF) else if n = 4 then (0x80, 0x8F) else continuation

/-- The first one of four octets. -/
theorem begin_four {n : Nat} (h : n < 5) :
    begin (UInt8.ofNat (n + 240))
      = .inr ⟨n, secondOfFour n, [continuation, continuation], [UInt8.ofNat (n + 240)]⟩ := by
  rw [begin, toNat_ofNat_of_lt (by omega)]
  dsimp only
  rw [if_neg (by omega), if_neg (by omega), if_neg (by omega), if_neg (by omega),
    if_pos (by omega), Nat.add_sub_cancel]
  simp only [secondOfFour, Nat.add_eq_right, Nat.reduceEqDiff]

/-! ## Further octets -/

/-- The octet with six given bits lies in a range. -/
def Continues (range : UInt8 × UInt8) (n : Nat) : Prop :=
  n < 64 ∧ range.1.toNat ≤ n + 128 ∧ n + 128 ≤ range.2.toNat

theorem continues_continuation {n : Nat} (h : n < 64) : Continues continuation n :=
  ⟨h, Nat.le_add_left 128 n, Nat.add_le_add_right (Nat.le_of_lt_succ h) 128⟩

/-- A character that takes three octets is not so small that fewer would do, and no surrogate. -/
theorem continues_secondOfThree {n : Nat} (hlow : 0x800 ≤ n)
    (hvalid : n < 0xD800 ∨ 0xDFFF < n) (hhigh : n < 0x10000) :
    Continues (secondOfThree (n / 4096)) (n / 64 % 64) := by
  unfold secondOfThree
  split
  · exact ⟨by omega, show 160 ≤ _ by omega, show _ ≤ 191 by omega⟩
  · split
    · exact ⟨by omega, show 128 ≤ _ by omega, show _ ≤ 159 by omega⟩
    · exact continues_continuation (Nat.mod_lt _ (by decide))

/-- A character that takes four octets is not so small that fewer would do, and no larger than the
last code point. -/
theorem continues_secondOfFour {n : Nat} (hlow : 0x10000 ≤ n) (hhigh : n < 0x110000) :
    Continues (secondOfFour (n / 262144)) (n / 4096 % 64) := by
  unfold secondOfFour
  split
  · exact ⟨by omega, show 144 ≤ _ by omega, show _ ≤ 191 by omega⟩
  · split
    · exact ⟨by omega, show 128 ≤ _ by omega, show _ ≤ 143 by omega⟩
    · exact continues_continuation (Nat.mod_lt _ (by decide))

section
variable {found : List Piece} {bits n : Nat} {range : UInt8 × UInt8} {seen : List UInt8}

/-- An octet in its range is within the bounds that a step compares with. -/
theorem Continues.le (h : Continues range n) :
    range.1 ≤ UInt8.ofNat (n + 128) ∧ UInt8.ofNat (n + 128) ≤ range.2 := by
  have hn : n < 64 := h.1
  rw [UInt8.le_iff_toNat_le, UInt8.le_iff_toNat_le, toNat_ofNat_of_lt (by omega)]
  exact h.2

/-- The last octet completes a character. -/
theorem step_last (h : Continues range n) :
    Reading.step ⟨found, some ⟨bits, range, [], seen⟩⟩ (UInt8.ofNat (n + 128))
      = ⟨.scalar (Char.ofNat (bits * 64 + n)) :: found, none⟩ := by
  rw [Reading.step, if_pos h.le, toNat_ofNat_of_lt (by have := h.1; omega), Nat.add_sub_cancel]

/-- Any other octet adds its bits. -/
theorem step_more (h : Continues range n) (next : UInt8 × UInt8) (later : List (UInt8 × UInt8)) :
    Reading.step ⟨found, some ⟨bits, range, next :: later, seen⟩⟩ (UInt8.ofNat (n + 128))
      = ⟨found, some ⟨bits * 64 + n, next, later, UInt8.ofNat (n + 128) :: seen⟩⟩ := by
  rw [Reading.step, if_pos h.le, toNat_ofNat_of_lt (by have := h.1; omega), Nat.add_sub_cancel]

/-- Between characters, an octet that is a piece on its own is taken as such. -/
theorem step_start_inl {b : UInt8} {piece : Piece} (h : begin b = .inl piece) :
    Reading.step ⟨found, none⟩ b = ⟨piece :: found, none⟩ := by
  rw [Reading.step, Reading.start, h]

theorem step_start_inr {b : UInt8} {p : Partial} (h : begin b = .inr p) :
    Reading.step ⟨found, none⟩ b = ⟨found, some p⟩ := by
  rw [Reading.step, Reading.start, h]

end

/-! ## Texts -/

/-- The octets of a character are read as the character. -/
theorem foldl_step_utf8EncodeChar (found : List Piece) (c : Char) :
    (String.utf8EncodeChar c).foldl Reading.step ⟨found, none⟩ = ⟨.scalar c :: found, none⟩ := by
  have hvalid := toNat_valid c
  have hchar : Char.ofNat c.toNat = c := Char.ofNat_toNat c
  have hdef : String.utf8EncodeChar c =
      if c.toNat ≤ 127 then [UInt8.ofNat c.toNat]
      else if c.toNat ≤ 2047 then
        [UInt8.ofNat (c.toNat / 64 % 32 + 192), UInt8.ofNat (c.toNat % 64 + 128)]
      else if c.toNat ≤ 65535 then
        [UInt8.ofNat (c.toNat / 4096 % 16 + 224), UInt8.ofNat (c.toNat / 64 % 64 + 128),
          UInt8.ofNat (c.toNat % 64 + 128)]
      else
        [UInt8.ofNat (c.toNat / 262144 % 8 + 240), UInt8.ofNat (c.toNat / 4096 % 64 + 128),
          UInt8.ofNat (c.toNat / 64 % 64 + 128), UInt8.ofNat (c.toNat % 64 + 128)] := rfl
  generalize c.toNat = n at hvalid hchar hdef
  have hlast : Continues continuation (n % 64) := continues_continuation (Nat.mod_lt n (by decide))
  have hmiddle : Continues continuation (n / 64 % 64) :=
    continues_continuation (Nat.mod_lt _ (by decide))
  rw [hdef]
  split
  · next h =>
    rw [List.foldl_cons, step_start_inl (begin_one (by omega)), hchar, List.foldl_nil]
  · split
    · next h =>
      have hfirst : n / 64 % 32 = n / 64 := Nat.mod_eq_of_lt (by omega)
      have hbits : n / 64 * 64 + n % 64 = n := by omega
      rw [hfirst]
      simp only [List.foldl_cons, List.foldl_nil]
      rw [step_start_inr (begin_two (by omega) (by omega)), step_last hlast, hbits, hchar]
    · split
      · next h =>
        have hfirst : n / 4096 % 16 = n / 4096 := Nat.mod_eq_of_lt (by omega)
        have hbits : (n / 4096 * 64 + n / 64 % 64) * 64 + n % 64 = n := by omega
        have hsecond := continues_secondOfThree (n := n) (by omega) (by omega) (by omega)
        rw [hfirst]
        simp only [List.foldl_cons, List.foldl_nil]
        rw [step_start_inr (begin_three (by omega)), step_more hsecond, step_last hlast, hbits,
          hchar]
      · have hfirst : n / 262144 % 8 = n / 262144 := Nat.mod_eq_of_lt (by omega)
        have hbits : ((n / 262144 * 64 + n / 4096 % 64) * 64 + n / 64 % 64) * 64 + n % 64 = n := by
          omega
        have hsecond := continues_secondOfFour (n := n) (by omega) (by omega)
        rw [hfirst]
        simp only [List.foldl_cons, List.foldl_nil]
        rw [step_start_inr (begin_four (by omega)), step_more hsecond, step_more hmiddle,
          step_last hlast, hbits, hchar]

/-- The octets of a text are read character by character. -/
theorem foldl_step_encode (found : List Piece) (s : List Char) :
    (encode s).foldl Reading.step ⟨found, none⟩ = ⟨(s.map .scalar).reverse ++ found, none⟩ := by
  induction s generalizing found with
  | nil => rfl
  | cons c s ih =>
    have hencode : encode (c :: s) = String.utf8EncodeChar c ++ encode s := List.flatMap_cons
    rw [hencode, List.foldl_append, foldl_step_utf8EncodeChar, ih]
    simp

/-- The pieces of an encoded text are its characters. -/
theorem pieces_encode (s : List Char) : pieces (encode s) = s.map .scalar := by
  rw [pieces, foldl_step_encode, List.append_nil, Reading.close, List.reverse_reverse]

/-- The lossy reading of an encoded text is the text. -/
theorem lossy_encode (s : List Char) : lossy (encode s) = s := by
  rw [lossy, pieces_encode, List.map_map]
  exact List.map_id s

end MovieCatalog.Text.Utf8
