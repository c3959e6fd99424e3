import MovieCatalog.Json.Decode
import MovieCatalog.Proofs.Json.Legible

/-!
# Decoders on written values

A decoder reads a value back when it finds it in the tree of some JSON value, wherever enough levels
may still be entered (`Decoder.Reads`); then it reads it from the text too
(`Decoder.Reads.readString`). What a decoder can find at all (`Decoder.Yields`) is traced to the
decoders it is made of. Both are stated here for strings, numbers, arrays, tables and variants.
-/

namespace MovieCatalog.Json

/-- A successful sequence has a successful first part. -/
theorem ok_of_bind {ε α β : Type} {x : Except ε α} {k : α → Except ε β} {b : β}
    (h : (x >>= k) = .ok b) : ∃ a, x = .ok a ∧ k a = .ok b := by
  cases x with
  | error e => cases h
  | ok a => exact ⟨a, rfl, h⟩

/-- A sequence goes on with what its first part gives. -/
theorem bind_of_ok {ε α β : Type} {x : Except ε α} {a : α} (h : x = .ok a) (k : α → Except ε β) :
    (x >>= k) = k a :=
  congrArg (· >>= k) h

/-- A value of another shape than the one wanted is not read. -/
theorem Node.mismatch_ne_ok {α : Type} {wanted : Wanted} {n : Node} {a : α} :
    n.mismatch wanted ≠ .ok a := by
  intro h
  obtain ⟨shape, -, h⟩ := ok_of_bind h
  cases h

/-- A level may be entered when there is room. -/
theorem Context.enter_of_le {ctx : Context} {depth : Nat} (h : depth + 1 ≤ ctx.room) :
    ∃ inside, ctx.enter = .ok inside ∧ depth ≤ inside.room := by
  obtain ⟨room, memory⟩ := ctx
  cases room with
  | zero => exact absurd h (Nat.not_succ_le_zero depth)
  | succ room => exact ⟨⟨room, memory⟩, rfl, Nat.le_of_succ_le_succ h⟩

namespace Decoder

section
variable {α : Type} {d : Decoder α} {depth : Nat} {v : Json} {a : α}

/-- The decoder reads `a` from the value wherever `depth` levels may still be entered. -/
def Reads (d : Decoder α) (depth : Nat) (v : Json) (a : α) : Prop :=
  ∀ ctx : Context, depth ≤ ctx.room → d ctx v.node = .ok a

/-- The decoder finds `a` in some tree. -/
def Yields (d : Decoder α) (a : α) : Prop :=
  ∃ ctx n, d ctx n = .ok a

/-- More room for nesting does no harm. -/
theorem Reads.mono {deeper : Nat} (h : d.Reads depth v a) (hle : depth ≤ deeper) :
    d.Reads deeper v a :=
  fun ctx hroom => h ctx (Nat.le_trans hle hroom)

/-- What is read may be worked on. -/
theorem Reads.bind {β : Type} {k : α → Except Fault β} {b : β} (h : d.Reads depth v a)
    (hk : k a = .ok b) : Decoder.Reads (fun ctx n => d ctx n >>= k) depth v b :=
  fun ctx hroom => (congrArg (· >>= k) (h ctx hroom)).trans hk

/-- What a further step finds comes of a value that the reader finds. -/
theorem yields_of_bind {β : Type} {k : α → Except Fault β} {b : β}
    (h : Decoder.Yields (fun ctx n => d ctx n >>= k) b) : ∃ a, d.Yields a ∧ k a = .ok b := by
  obtain ⟨ctx, n, h⟩ := h
  obtain ⟨a, hread, h⟩ := ok_of_bind h
  exact ⟨a, ⟨ctx, n, hread⟩, h⟩

/-- What is read from a value is read from its text. -/
theorem Reads.readString (h : d.Reads depth v a) (hdepth : depth ≤ Context.start.room) :
    d.readString v.text = .ok a := by
  rw [Decoder.readString, Decoder.read, Document.read_text]
  simp only [h .start hdepth]
  rfl

/-- A text is read exactly if its tree is and nothing follows it. -/
theorem read_eq_ok_iff {text : Rest} :
    d.read text = .ok a ↔
      d .start (Document.read text).root = .ok a ∧ (Document.read text).more = false := by
  constructor
  · intro h
    obtain ⟨b, hread, h⟩ := ok_of_bind h
    split at h
    · cases h
    · next hmore =>
      cases h
      exact ⟨hread, Bool.eq_false_iff.2 hmore⟩
  · rintro ⟨hread, hmore⟩
    refine (bind_of_ok hread _).trans ?_
    rw [hmore]
    rfl

/-- What is read from a text is found in a tree. -/
theorem yields_of_read {text : Rest} (h : d.read text = .ok a) : d.Yields a :=
  ⟨_, _, (read_eq_ok_iff.1 h).1⟩

/-! ## Single values -/

/-- A string is read back. -/
theorem reads_string (s : String) : Decoder.string.Reads 0 (.string s) s :=
  fun _ _ => StringLexeme.read_ofString s

/-- An integer within the bounds is read as itself. -/
theorem reads_integer (wanted : Wanted) {least bound i : Int} (h : least ≤ i ∧ i < bound)
    (held : leastInteger ≤ i ∧ i < integerBound) :
    (integer wanted least bound).Reads 0 (.number (.integer i held)) i := by
  intro ctx _
  have hnumber : number wanted ctx (node (.number (.integer i held))) = .ok (.integer i held) :=
    Number.legible_integer i held
  rw [integer, hnumber]
  exact if_pos h

/-- A number of 64 bits is read back. -/
theorem reads_natural64 (n : UInt64) : Decoder.natural64.Reads 0 (.ofUInt64 n) n := by
  have hbound : (0 : Int) ≤ n.toNat ∧ (n.toNat : Int) < Word.size64 := by
    have hlt := n.toNat_lt
    simp only [Word.size64]
    omega
  refine (reads_integer .natural64 hbound _).bind ?_
  rw [Int.toNat_natCast, UInt64.ofNat_toNat]
  rfl

theorem reads_natural32 (n : UInt32) : Decoder.natural32.Reads 0 (.ofUInt32 n) n := by
  have hbound : (0 : Int) ≤ n.toUInt64.toNat ∧ (n.toUInt64.toNat : Int) < Word.size32 := by
    have hlt := n.toNat_lt
    simp only [UInt32.toNat_toUInt64, Word.size32]
    omega
  refine (reads_integer .natural32 hbound _).bind ?_
  rw [Int.toNat_natCast, UInt32.toNat_toUInt64, UInt32.ofNat_toNat]
  rfl

theorem reads_integer64 (n : Int64) : Decoder.integer64.Reads 0 (.ofInt64 n) n := by
  have hbound : -(Word.half64 : Int) ≤ n.toInt ∧ n.toInt < Word.half64 := by
    have hle := n.le_toInt
    have hlt := n.toInt_lt
    simp only [Word.half64]
    omega
  refine (reads_integer .integer64 hbound _).bind ?_
  rw [Int64.ofInt_toInt]
  rfl

/-- A finite floating-point number is read back if it is legible. -/
theorem reads_double {x : Binary64} (hx : x.isFinite = true) (h : (ofBinary64 x).Legible) :
    Decoder.double.Reads 0 (.ofBinary64 x) x := by
  intro ctx _
  have hread : (NumberLexeme.ofLiteral (Number.float x hx).literal).read = .ok (.float x hx) :=
    h.number_of_finite hx
  have hdouble : Decoder.double ctx (.number (.ofLiteral (Number.float x hx).literal))
      = (do return (← (NumberLexeme.ofLiteral (Number.float x hx).literal).read).toBinary64) := rfl
  rw [ofBinary64, Number.ofBinary64?_of_finite hx, node, hdouble, hread]
  rfl

/-- Only finite numbers are read. -/
theorem isFinite_of_yields_double {x : Binary64} (h : Decoder.double.Yields x) :
    x.isFinite = true := by
  obtain ⟨ctx, n, h⟩ := h
  obtain ⟨l, -, h⟩ := ok_of_bind h
  cases h
  exact l.isFinite_toBinary64

/-- A value that is not `null` is read as if `null` were not allowed. -/
theorem reads_nullable (hv : v.node ≠ .null) (h : d.Reads depth v a) :
    (nullable d).Reads depth v (some a) := by
  intro ctx hroom
  have hread : nullable d ctx v.node = some <$> d ctx v.node := by
    unfold nullable
    split
    · next heq => exact absurd heq hv
    · rfl
  rw [hread, h ctx hroom]
  rfl

/-- Where null is allowed, a value that is found is found by the reader itself. -/
theorem yields_of_nullable (h : (nullable d).Yields (some a)) : d.Yields a := by
  obtain ⟨ctx, n, h⟩ := h
  unfold nullable at h
  split at h
  · cases h
  · obtain ⟨b, hread, h⟩ := ok_of_bind h
    cases h
    exact ⟨ctx, _, hread⟩

/-! ## Arrays -/

/-- Elements are read back one after the other. -/
theorem elements_itemNodes {as : List α} {f : α → Json} {ctx : Context}
    (h : ∀ a ∈ as, d ctx (f a).node = .ok a) :
    elements d ctx (itemNodes (as.map f)) = .ok as := by
  induction as with
  | nil => rfl
  | cons a as ih =>
    have hhead := h a List.mem_cons_self
    have htail := ih fun b hb => h b (List.mem_cons_of_mem _ hb)
    rw [List.map_cons, itemNodes, elements, hhead, htail]
    rfl

/-- An array is read back if each of its items is, one level deeper. -/
theorem reads_list {as : List α} {f : α → Json} (h : ∀ a ∈ as, d.Reads depth (f a) a) :
    (list d).Reads (depth + 1) (.array (as.map f)) as := by
  intro ctx hroom
  obtain ⟨inside, henter, hinside⟩ := Context.enter_of_le hroom
  have helements := elements_itemNodes fun a ha => h a ha inside hinside
  have hlist : list d ctx (.array (itemNodes (as.map f)) .closed)
      = (do elements d (← ctx.enter) (itemNodes (as.map f)) >>= pure) := rfl
  rw [node, hlist, henter]
  exact congrArg (· >>= pure) helements

/-- An array of strings is read back. -/
theorem reads_ofStrings (texts : List String) :
    (list .string).Reads 1 (.ofStrings texts) texts :=
  reads_list fun s _ => reads_string s

theorem yields_of_elements {ctx : Context} {ns : List Node} {as : List α}
    (h : elements d ctx ns = .ok as) : ∀ a ∈ as, d.Yields a := by
  induction ns generalizing as with
  | nil =>
    cases h
    exact fun a ha => nomatch ha
  | cons n ns ih =>
    obtain ⟨b, hread, h⟩ := ok_of_bind h
    obtain ⟨bs, hrest, h⟩ := ok_of_bind h
    cases h
    intro a ha
    rcases List.mem_cons.1 ha with rfl | ha
    · exact ⟨ctx, n, hread⟩
    · exact ih hrest a ha

/-- Each element of a list is found by the reader of elements. -/
theorem yields_of_list {as : List α} (h : (list d).Yields as) : ∀ a ∈ as, d.Yields a := by
  obtain ⟨ctx, n, h⟩ := h
  unfold list at h
  split at h
  · obtain ⟨inside, -, h⟩ := ok_of_bind h
    obtain ⟨bs, helements, h⟩ := ok_of_bind h
    obtain ⟨_, -, h⟩ := ok_of_bind h
    cases h
    exact yields_of_elements helements
  · exact absurd h Node.mismatch_ne_ok

/-! ## Tables -/

/-- An object with one member is a table of it. -/
theorem reads_table (key : String) (h : d.Reads depth v a) :
    (table d).Reads (depth + 1) (.object [(key, v)]) [(key, a)] := by
  intro ctx hroom
  obtain ⟨inside, henter, hinside⟩ := Context.enter_of_le hroom
  have hentries : entries d inside (memberNodes [(key, v)]) = .ok [(key, a)] := by
    rw [memberNodes, memberNodes, entries, StringLexeme.read_ofString, h inside hinside]
    rfl
  have htable : table d ctx (.object (memberNodes [(key, v)]) .closed)
      = (do return sortMembers (← entries d (← ctx.enter) (memberNodes [(key, v)]))) := rfl
  rw [node, htable, henter]
  exact congrArg (· >>= fun ms => pure (sortMembers ms)) hentries

theorem yields_of_entries {ctx : Context} {ns : List (StringLexeme × Node)}
    {ms : List (String × α)} (h : entries d ctx ns = .ok ms) : ∀ m ∈ ms, d.Yields m.2 := by
  induction ns generalizing ms with
  | nil =>
    cases h
    exact fun m hm => nomatch hm
  | cons n ns ih =>
    obtain ⟨key, -, h⟩ := ok_of_bind h
    obtain ⟨b, hread, h⟩ := ok_of_bind h
    obtain ⟨bs, hrest, h⟩ := ok_of_bind h
    cases h
    intro m hm
    rcases List.mem_cons.1 hm with rfl | hm
    · exact ⟨ctx, n.2, hread⟩
    · exact ih hrest m hm

/-- A member that is put among others is one of those that were there, or the new one. -/
theorem mem_of_mem_insertMember {key : String} {ms : List (String × α)} {m : String × α}
    (h : m ∈ insertMember key a ms) : m = (key, a) ∨ m ∈ ms := by
  induction ms with
  | nil => exact .inl (List.mem_singleton.1 h)
  | cons first rest ih =>
    unfold insertMember at h
    split at h
    · exact List.mem_cons.1 h
    · split at h
      · rcases List.mem_cons.1 h with h | h
        · exact .inl h
        · exact .inr (List.mem_cons_of_mem _ h)
      · rcases List.mem_cons.1 h with h | h
        · exact .inr (h ▸ List.mem_cons_self)
        · exact (ih h).imp_right (List.mem_cons_of_mem _)

/-- Sorting adds no members. -/
theorem mem_of_mem_sortMembers {ms : List (String × α)} {m : String × α}
    (h : m ∈ sortMembers ms) : m ∈ ms := by
  have hfold : ∀ sorted : List (String × α),
      m ∈ ms.foldl (fun sorted m => insertMember m.1 m.2 sorted) sorted → m ∈ sorted ∨ m ∈ ms := by
    clear h
    induction ms with
    | nil => exact fun sorted h => .inl h
    | cons first rest ih =>
      intro sorted h
      rcases ih _ h with h | h
      · exact (mem_of_mem_insertMember h).elim (fun h => .inr (h ▸ List.mem_cons_self)) .inl
      · exact .inr (List.mem_cons_of_mem _ h)
  exact (hfold [] h).resolve_left List.not_mem_nil

/-- Each value of a table is found by the reader of entries; sorting adds none. -/
theorem yields_of_table {ms : List (String × α)} (h : (table d).Yields ms) :
    ∀ m ∈ ms, d.Yields m.2 := by
  obtain ⟨ctx, n, h⟩ := h
  unfold table at h
  split at h
  · obtain ⟨inside, -, h⟩ := ok_of_bind h
    obtain ⟨bs, hentries, h⟩ := ok_of_bind h
    obtain ⟨_, -, h⟩ := ok_of_bind h
    cases h
    exact fun m hm => yields_of_entries hentries m (mem_of_mem_sortMembers hm)
  · exact absurd h Node.mismatch_ne_ok

/-! ## Variants -/

/-- An object whose only member names a variant is read as the content of the variant. -/
theorem reads_oneOf {variants : List (Variant α)} {name : String} {w : Variant α}
    (hfind : Variant.find variants name = .ok w) (h : w.content.Reads depth v a) :
    (oneOf variants).Reads (depth + 1) (.object [(name, v)]) a := by
  intro ctx hroom
  obtain ⟨inside, henter, hinside⟩ := Context.enter_of_le hroom
  have hkey := StringLexeme.read_ofString name
  simp only [node, memberNodes, oneOf, henter, hkey, hfind, h inside hinside, bind, Except.bind]
  rfl

/-- A variant that is found is one of those that were there. -/
theorem mem_of_find {variants : List (Variant α)} {name : String} {w : Variant α}
    (h : Variant.find variants name = .ok w) : w ∈ variants := by
  unfold Variant.find at h
  split at h
  · next hfind =>
    cases h
    exact List.mem_of_find?_eq_some hfind
  · cases h

/-- What is read stands for the name of a variant or is the content of one. -/
theorem yields_of_oneOf {variants : List (Variant α)} (h : (oneOf variants).Yields a) :
    ∃ w ∈ variants, w.bare = some a ∨ w.content.Yields a := by
  obtain ⟨ctx, n, h⟩ := h
  unfold oneOf at h
  split at h
  · obtain ⟨name, -, h⟩ := ok_of_bind h
    obtain ⟨w, hfind, h⟩ := ok_of_bind h
    split at h
    · next b hbare =>
      cases h
      exact ⟨w, mem_of_find hfind, .inl hbare⟩
    · cases h
  · obtain ⟨inside, -, h⟩ := ok_of_bind h
    obtain ⟨name, -, h⟩ := ok_of_bind h
    obtain ⟨w, hfind, h⟩ := ok_of_bind h
    obtain ⟨b, hread, h⟩ := ok_of_bind h
    split at h
    · cases h
      exact ⟨w, mem_of_find hfind, .inr ⟨inside, _, hread⟩⟩
    · cases h
    · cases h
  · -- without a member the object is at fault, whatever stands behind the brace
    obtain ⟨inside, -, h⟩ := ok_of_bind h
    split at h
    · cases h
    · obtain ⟨name, -, h⟩ := ok_of_bind h
      obtain ⟨w, -, h⟩ := ok_of_bind h
      cases h
    · obtain ⟨_, -, h⟩ := ok_of_bind h
      cases h
  · cases h
  · cases h

end

end Decoder

end MovieCatalog.Json
