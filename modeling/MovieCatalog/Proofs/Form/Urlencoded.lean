import MovieCatalog.Form.Urlencoded
import MovieCatalog.Proofs.Text.Utf8
import Mathlib.Data.List.Forall2

/-!
# Forms read back

A form has many written forms, since every octet may stand behind a percent sign and a space may be
a plus sign (`Urlencoded.Written`). Each of them is read as the form
(`Urlencoded.decodeOctets_of_written`): the octets that mark pairs, names and escapes are never
written as themselves, so the text is cut where it was joined, and what lies between two marks is
read octet by octet. The encoder makes one of these written forms (`Urlencoded.written_encode`).
-/

namespace MovieCatalog

namespace Text.Percent

/-- An octet other than the percent sign stands for itself. -/
theorem decode_cons_of_ne {b : UInt8} (h : b ≠ sign) (rest : List UInt8) :
    decode (b :: rest) = b :: decode rest := by
  match rest with
  | [] => rfl
  | [_] => rfl
  | _ :: _ :: _ => rw [decode, if_neg h]

/-- Two digits behind a percent sign are an octet. -/
theorem decode_escape {high low b : UInt8} (h : pair? high low = some b) (rest : List UInt8) :
    decode (sign :: high :: low :: rest) = b :: decode rest := by
  rw [decode, if_pos rfl, h]

/-- Only digits make an octet. -/
theorem isSome_of_pair? {high low b : UInt8} (h : pair? high low = some b) :
    (digit? high).isSome ∧ (digit? low).isSome := by
  unfold pair? at h
  cases hhigh : digit? high with
  | none => simp [hhigh] at h
  | some m =>
    cases hlow : digit? low with
    | none => simp [hhigh, hlow] at h
    | some n => simp

/-- The digits of an octet make the octet. -/
theorem pair?_digits (b : UInt8) : pair? (digit (b / 16)) (digit (b % 16)) = some b := by
  have h : ∀ n : Fin UInt8.size,
      pair? (digit (UInt8.ofFin n / 16)) (digit (UInt8.ofFin n % 16)) = some (UInt8.ofFin n) := by
    decide +kernel
  exact h b.toFin

end Text.Percent

namespace Form.Urlencoded

open Text (Percent.sign Percent.digit? Percent.pair?)

/-- The octets that do not stand for themselves. -/
def marks : List UInt8 := [ampersand, equalsSign, plusSign, Percent.sign]

/-- A written form of an octet. -/
inductive OctetWritten (b : UInt8) : List UInt8 → Prop
  | plain (h : b ∉ marks) : OctetWritten b [b]
  | plus (h : b = space) : OctetWritten b [plusSign]
  | escaped {high low : UInt8} (h : Percent.pair? high low = some b) :
      OctetWritten b [Percent.sign, high, low]

/-- A written form of octets, one behind the other. -/
inductive OctetsWritten : List UInt8 → List UInt8 → Prop
  | nil : OctetsWritten [] []
  | cons {b : UInt8} {bs w ws : List UInt8} (hb : OctetWritten b w) (hbs : OctetsWritten bs ws) :
      OctetsWritten (b :: bs) (w ++ ws)

/-- A written form of a pair, with an equals sign between the name and the value. -/
inductive PairWritten (pair : String × String) : List UInt8 → Prop
  | intro {name value : List UInt8} (hname : OctetsWritten (Text.Utf8.encode pair.1.toList) name)
      (hvalue : OctetsWritten (Text.Utf8.encode pair.2.toList) value) :
      PairWritten pair (name ++ equalsSign :: value)

/-- A written form of a form, with ampersands between the pairs. -/
inductive Written (form : Pairs) : List UInt8 → Prop
  | intro {parts : List (List UInt8)} (h : List.Forall₂ PairWritten form parts) :
      Written form ([ampersand].intercalate parts)

/-! ## Reading -/

/-- A digit is no mark. -/
theorem notMem_marks_of_digit {b : UInt8} (h : (Percent.digit? b).isSome) : b ∉ marks := by
  have hnone : marks.all (fun m => (Percent.digit? m).isNone) = true := by decide
  intro hmark
  rw [Option.isNone_iff_eq_none.1 (List.all_eq_true.1 hnone b hmark)] at h
  cases h

/-- Neither an ampersand nor an equals sign is among the octets that are written. -/
theorem OctetsWritten.notMem {bs ws : List UInt8} (h : OctetsWritten bs ws) :
    ampersand ∉ ws ∧ equalsSign ∉ ws := by
  have hmark {b : UInt8} (hb : b ∉ marks) : ampersand ≠ b ∧ equalsSign ≠ b := by
    constructor <;> rintro rfl <;> exact hb (by decide)
  have hsign : ampersand ≠ Percent.sign ∧ equalsSign ≠ Percent.sign := by decide
  induction h with
  | nil => exact ⟨List.not_mem_nil, List.not_mem_nil⟩
  | cons hb hbs ih =>
    simp only [List.mem_append, not_or]
    refine ⟨⟨?_, ih.1⟩, ?_, ih.2⟩ <;> cases hb with
    | plain h => simp [hmark h]
    | plus h => decide
    | escaped h =>
      obtain ⟨hhigh, hlow⟩ := Text.Percent.isSome_of_pair? h
      simp [hsign, hmark (notMem_marks_of_digit hhigh), hmark (notMem_marks_of_digit hlow)]

/-- An octet that is not the plus sign is the same with spaces for plus signs. -/
theorem spaced_of_notMem {b : UInt8} (h : b ∉ marks) :
    (if b = plusSign then space else b) = b :=
  if_neg (by
    rintro rfl
    exact h (by decide))

/-- Octets are read back one by one. -/
theorem percentDecode_spaced {bs ws : List UInt8} (h : OctetsWritten bs ws) :
    Text.Percent.decode (ws.map fun b => if b = plusSign then space else b) = bs := by
  induction h with
  | nil => rfl
  | @cons b bs w ws hb hbs ih =>
    rw [List.map_append]
    cases hb with
    | plain h =>
      have hsign : b ≠ Percent.sign := fun hb => h (hb ▸ by decide)
      rw [List.map_singleton, spaced_of_notMem h, List.singleton_append,
        Text.Percent.decode_cons_of_ne hsign, ih]
    | plus h =>
      rw [List.map_singleton, if_pos rfl, List.singleton_append, h,
        Text.Percent.decode_cons_of_ne (by decide), ih]
    | escaped h =>
      obtain ⟨hhigh, hlow⟩ := Text.Percent.isSome_of_pair? h
      simp only [List.map_cons, List.map_nil, spaced_of_notMem (notMem_marks_of_digit hhigh),
        spaced_of_notMem (notMem_marks_of_digit hlow), List.cons_append, List.nil_append]
      exact (Text.Percent.decode_escape h _).trans (congrArg _ ih)

/-- A name or a value is read back. -/
theorem decodeText_of_written {s : String} {ws : List UInt8}
    (h : OctetsWritten (Text.Utf8.encode s.toList) ws) : decodeText ws = s := by
  simp only [decodeText]
  rw [percentDecode_spaced h, Text.Utf8.lossy_encode, String.ofList_toList]

/-- A pair is cut at the equals sign that joins it. -/
theorem decodePair_of_written {pair : String × String} {w : List UInt8} (h : PairWritten pair w) :
    decodePair w = pair := by
  cases h with
  | intro hname hvalue =>
    rw [decodePair, Text.cutAt_append_cons hname.notMem.2]
    exact Prod.ext (decodeText_of_written hname) (decodeText_of_written hvalue)

/-- A written pair is not empty and holds no ampersand. -/
theorem PairWritten.notMem {pair : String × String} {w : List UInt8} (h : PairWritten pair w) :
    ampersand ∉ w ∧ w ≠ [] := by
  cases h with
  | intro hname hvalue =>
    refine ⟨?_, List.append_ne_nil_of_right_ne_nil _ (List.cons_ne_nil _ _)⟩
    simp only [List.mem_append, List.mem_cons, not_or]
    exact ⟨hname.notMem.1, by decide, hvalue.notMem.1⟩

/-- Parts that are not empty and hold no ampersand are found again between ampersands. -/
theorem filter_splitOn_intercalate {parts : List (List UInt8)}
    (h : ∀ w ∈ parts, ampersand ∉ w ∧ w ≠ []) :
    (([ampersand].intercalate parts).splitOn ampersand).filter (!·.isEmpty) = parts := by
  by_cases hparts : parts = []
  · subst hparts
    rfl
  · rw [List.splitOn_intercalate ampersand (fun w hw => (h w hw).1) hparts, List.filter_eq_self]
    intro w hw
    simpa using (h w hw).2

/-- Written pairs are read back one by one. -/
theorem map_decodePair_of_written {form : Pairs} {parts : List (List UInt8)}
    (h : List.Forall₂ PairWritten form parts) : parts.map decodePair = form := by
  induction h with
  | nil => rfl
  | cons hpair hrest ih => rw [List.map_cons, decodePair_of_written hpair, ih]

/-- A pair that is written has an equals sign, so that it is not empty, and no ampersand. -/
theorem notMem_of_written {form : Pairs} {parts : List (List UInt8)}
    (h : List.Forall₂ PairWritten form parts) : ∀ w ∈ parts, ampersand ∉ w ∧ w ≠ [] := by
  induction h with
  | nil => exact fun w hw => nomatch hw
  | cons hpair hrest ih => exact List.forall_mem_cons.2 ⟨hpair.notMem, ih⟩

/-- Every written form of a form is read as the form. -/
theorem decodeOctets_of_written {form : Pairs} {octets : List UInt8} (h : Written form octets) :
    decodeOctets octets = form := by
  cases h with
  | intro hparts =>
    rw [decodeOctets, filter_splitOn_intercalate (notMem_of_written hparts),
      map_decodePair_of_written hparts]

/-! ## Writing -/

/-- An octet that the encoder leaves as it is is no mark. -/
theorem notMem_marks_of_isPlain {b : UInt8} (h : isPlain b = true) : b ∉ marks := by
  have hmarks : marks.all (fun m => !isPlain m) = true := by decide
  intro hmark
  have hb := List.all_eq_true.1 hmarks b hmark
  rw [h] at hb
  cases hb

/-- The encoder writes an octet in one of the three ways to write it. -/
theorem octetWritten_encodeOctet (b : UInt8) : OctetWritten b (encodeOctet b) := by
  unfold encodeOctet
  split
  · next h => exact .plain (notMem_marks_of_isPlain h)
  · split
    · next h => exact .plus h
    · exact .escaped (Text.Percent.pair?_digits b)

/-- The encoder writes a text octet by octet. -/
theorem octetsWritten_flatMap (bs : List UInt8) : OctetsWritten bs (bs.flatMap encodeOctet) := by
  induction bs with
  | nil => exact .nil
  | cons b bs ih =>
    rw [List.flatMap_cons]
    exact .cons (octetWritten_encodeOctet b) ih

/-- The encoder writes a pair. -/
theorem pairWritten_encodePair (pair : String × String) : PairWritten pair (encodePair pair) :=
  .intro (octetsWritten_flatMap _) (octetsWritten_flatMap _)

/-- The encoder writes nothing but ASCII. -/
theorem toNat_lt_of_mem_encodeOctet {b w : UInt8} (h : w ∈ encodeOctet b) : w.toNat < 0x80 := by
  have hall : ∀ n : Fin UInt8.size,
      (encodeOctet (UInt8.ofFin n)).all (fun w => decide (w.toNat < 0x80)) = true := by
    decide +kernel
  exact of_decide_eq_true (List.all_eq_true.1 (hall b.toFin) w h)

/-- A pair is written in ASCII. -/
theorem toNat_lt_of_mem_encodePair {pair : String × String} {w : UInt8}
    (h : w ∈ encodePair pair) : w.toNat < 0x80 := by
  have htext {s : String} (h : w ∈ encodeText s) : w.toNat < 0x80 := by
    obtain ⟨b, -, hb⟩ := List.mem_flatMap.1 h
    exact toNat_lt_of_mem_encodeOctet hb
  rcases List.mem_append.1 h with h | h
  · exact htext h
  · rcases List.mem_cons.1 h with rfl | h
    · decide
    · exact htext h

/-- What stands in joined parts stands in one of them or is the mark that joins them. -/
theorem mem_of_mem_intercalate {parts : List (List UInt8)} {b : UInt8}
    (h : b ∈ [ampersand].intercalate parts) : b = ampersand ∨ ∃ w ∈ parts, b ∈ w := by
  induction parts with
  | nil => cases h
  | cons w parts ih =>
    cases parts with
    | nil =>
      rw [List.intercalate_singleton] at h
      exact .inr ⟨w, List.mem_cons_self, h⟩
    | cons v parts =>
      rw [List.intercalate_cons_cons, List.append_assoc, List.mem_append, List.mem_append] at h
      rcases h with h | h | h
      · exact .inr ⟨w, List.mem_cons_self, h⟩
      · exact .inl (List.mem_singleton.1 h)
      · obtain h | ⟨u, hu, hb⟩ := ih h
        · exact .inl h
        · exact .inr ⟨u, List.mem_cons_of_mem _ hu, hb⟩

/-- ASCII octets are the octets of their characters. -/
theorem encode_ascii {octets : List UInt8} (h : ∀ b ∈ octets, b.toNat < 0x80) :
    Text.Utf8.encode (Text.Percent.ascii octets) = octets := by
  have hchar : ∀ n : Fin 0x80, String.utf8EncodeChar (Char.ofNat n) = [UInt8.ofNat n] := by
    decide +kernel
  induction octets with
  | nil => rfl
  | cons b octets ih =>
    have hb := hchar ⟨b.toNat, h b List.mem_cons_self⟩
    have hrest := ih fun c hc => h c (List.mem_cons_of_mem _ hc)
    rw [UInt8.ofNat_toNat] at hb
    rw [Text.Utf8.encode, Text.Percent.ascii] at hrest ⊢
    rw [List.map_cons, List.flatMap_cons, hb, hrest]
    rfl

/-- The query string of a form is a written form of it. -/
theorem written_encode (form : Pairs) : Written form (Text.Utf8.encode (encode form).toList) := by
  have hascii : ∀ b ∈ [ampersand].intercalate (form.map encodePair), b.toNat < 0x80 := by
    intro b hb
    obtain rfl | ⟨w, hw, hb⟩ := mem_of_mem_intercalate hb
    · decide
    · obtain ⟨pair, -, rfl⟩ := List.mem_map.1 hw
      exact toNat_lt_of_mem_encodePair hb
  rw [encode, String.toList_ofList, encode_ascii hascii]
  refine .intro ?_
  rw [List.forall₂_map_right_iff, List.forall₂_same]
  exact fun pair _ => pairWritten_encodePair pair

end Form.Urlencoded

end MovieCatalog
