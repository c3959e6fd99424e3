import MovieCatalog.Proofs.Json.Change
import MovieCatalog.Proofs.Json.Meaning

/-!
# What is read from definite values

A value is definite if it is complete, all its strings and numbers mean something and no object in
it has two members under one name (`Node.Definite`). From a definite value a decoder reads exactly
what the value means, as long as there is room for its levels (`Decoder.ExactFor`): this is traced
to the elements of an array (`Decoder.ExactFor.list`), to the only member of an object
(`Decoder.ExactFor.table_singleton`), to the content behind the name of a variant
(`Decoder.ExactFor.oneOf`) and to the fields of a record, which may be an object or an array
(`Fields.decode_eq_ok_iff`).
-/

namespace MovieCatalog.Json

/-! ## Definite values -/

/-- A value that is complete and of which every string and every number means something. No object
in it has two members under one name. -/
inductive Node.Definite : Node → Prop
  | null : Definite .null
  | boolean (b : Bool) : Definite (.boolean b)
  | number {l : NumberLexeme} {x : Number} (h : l.read = .ok x) : Definite (.number l)
  | string {l : StringLexeme} {s : String} (h : l.read = .ok s) : Definite (.string l)
  | array {items : List Node} (h : ∀ n ∈ items, Definite n) : Definite (.array items .closed)
  | object {members : List (StringLexeme × Node)}
      (hkeys : ∀ m ∈ members, ∃ name, m.1.read = .ok name)
      (hdistinct : (members.map fun m => m.1.read).Nodup) (h : ∀ m ∈ members, Definite m.2) :
      Definite (.object members .closed)

/-- The value is an object with one member, which has a given name and a given value. -/
inductive Node.OnlyMember (name : String) (v : Node) : Node → Prop
  | object {key : StringLexeme} (hkey : key.read = .ok name) :
      OnlyMember name v (.object [(key, v)] .closed)

/-- The value of the only member of a definite node is definite. -/
theorem Node.OnlyMember.definite {name : String} {v n : Node} (h : Node.OnlyMember name v n)
    (hn : n.Definite) : v.Definite := by
  cases h with
  | object hkey =>
    cases hn with
    | object _ _ hvalues => exact hvalues _ List.mem_cons_self

/-- Only a string that is closed means something. -/
theorem StringLexeme.ending_of_characters {ending : StringEnd} {units : List StringUnit}
    {done cs : List Char} (h : characters ending done units = .ok cs) : ending = .closed := by
  fun_induction characters ending done units with
  | case1 done hfault =>
    cases ending with
    | closed => rfl
    | _ => cases hfault
  -- the units that are passed: characters, stray octets, surrogate pairs and other numbers
  | case3 | case4 | case6 | case10 =>
    rename_i ih
    exact ih h
  | _ => cases h

/-- A string that can be read ends in its quotation mark. -/
theorem StringLexeme.ending_of_read {l : StringLexeme} {s : String} (h : l.read = .ok s) :
    l.ending = .closed := by
  obtain ⟨cs, hcs, -⟩ := ok_of_bind h
  exact ending_of_characters hcs

/-- A definite value follows the grammar. -/
theorem Node.Definite.wellFormed {n : Node} (h : n.Definite) : n.WellFormed := by
  induction h with
  | null => exact .null
  | boolean b => exact .boolean b
  | @number l x h =>
    cases l with
    | whole negative digits => exact .whole negative digits
    | scaled literal => exact .scaled literal
    | broken atEnd => cases h
  | string h => exact .string (StringLexeme.ending_of_read h)
  | array _ ih => exact .array ih
  | object hkeys _ _ ih =>
    refine .object (fun m hm => ?_) ih
    obtain ⟨name, hname⟩ := hkeys m hm
    exact StringLexeme.ending_of_read hname

namespace Node

variable {room : Nat} {v : Json}

/-- Nothing but an array is the value of an array. -/
theorem exists_of_value_array {items : List Node} {ending : ArrayEnd}
    (h : (array items ending).value room = .ok v) : ∃ values, v = .array values := by
  unfold value at h
  split at h
  · cases h
  · obtain ⟨values, -, h⟩ := ok_of_bind h
    obtain ⟨_, -, h⟩ := ok_of_bind h
    cases h
    exact ⟨values, rfl⟩

/-- Nothing but an object is the value of an object. -/
theorem exists_of_value_object {members : List (StringLexeme × Node)} {ending : ObjectEnd}
    (h : (object members ending).value room = .ok v) : ∃ values, v = .object values := by
  unfold value at h
  split at h
  · cases h
  · obtain ⟨values, -, h⟩ := ok_of_bind h
    obtain ⟨_, -, h⟩ := ok_of_bind h
    cases h
    exact ⟨_, rfl⟩

/-- Where any value is read, a string is read from nothing but a string. -/
theorem value_eq_string_iff {n : Node} {s : String} :
    n.value room = .ok (.string s) ↔ n.MeansText s := by
  constructor
  · intro h
    cases n with
    | string l =>
      obtain ⟨_, hread, h⟩ := ok_of_bind h
      cases h
      exact .string hread
    | number l =>
      obtain ⟨_, -, h⟩ := ok_of_bind h
      cases h
    | array items ending =>
      obtain ⟨_, hv⟩ := exists_of_value_array h
      cases hv
    | object members ending =>
      obtain ⟨_, hv⟩ := exists_of_value_object h
      cases hv
    | _ => cases h
  · intro h
    cases h with
    | string hread => exact congrArg (Json.string <$> ·) hread

/-- Where any value is read, a number is read from nothing but a numeral. -/
theorem value_eq_number_iff {n : Node} {x : Number} :
    n.value room = .ok (.number x) ↔ n.MeansNumber x := by
  constructor
  · intro h
    cases n with
    | number l =>
      obtain ⟨_, hread, h⟩ := ok_of_bind h
      cases h
      exact .number hread
    | string l =>
      obtain ⟨_, -, h⟩ := ok_of_bind h
      cases h
    | array items ending =>
      obtain ⟨_, hv⟩ := exists_of_value_array h
      cases hv
    | object members ending =>
      obtain ⟨_, hv⟩ := exists_of_value_object h
      cases hv
    | _ => cases h
  · intro h
    cases h with
    | number hread => exact congrArg (Json.number <$> ·) hread

end Node

/-! ## Whole numbers -/

/-- What is read in floating point is no integer. -/
theorem NumberLexeme.readFloat_ne_integer {l : Decimal.Literal} {i : Int}
    {held : leastInteger ≤ i ∧ i < integerBound} :
    readFloat l ≠ .ok (.integer i held) := by
  intro h
  unfold readFloat Number.ofBinary64? at h
  split at h
  · next hx =>
    split at hx
    · cases hx
      cases h
    · cases hx
  · cases h

/-- An integer that is held is the integer that was written. -/
theorem Number.eq_of_ofInt? {n i : Int} {held : leastInteger ≤ i ∧ i < integerBound}
    (h : ofInt? n = some (.integer i held)) : n = i := by
  unfold ofInt? at h
  split at h
  · injection h with h
    injection h
  · cases h

/-- The first of two readings that succeeds. -/
theorem NumberLexeme.orElse_eq_ok_iff {integer? : Option Number}
    {float : Except Fault Number} {x : Number} :
    (match integer? with
      | some n => Except.ok n
      | none => float) = .ok x ↔ integer? = some x ∨ integer? = none ∧ float = .ok x := by
  cases integer? <;> simp

/-- Only whole numbers are read as integers, and they are read as what their digits say. -/
theorem NumberLexeme.read_eq_integer_iff {l : NumberLexeme} {i : Int}
    {held : leastInteger ≤ i ∧ i < integerBound} :
    l.read = .ok (.integer i held) ↔
      ∃ negative digits, l = .whole negative digits ∧ signedValue negative digits = i ∧
        (negative = true → i ≠ 0) := by
  constructor
  · intro h
    cases l with
    | whole negative digits =>
      refine ⟨negative, digits, rfl, ?_⟩
      unfold read at h
      rcases orElse_eq_ok_iff.1 h with h | ⟨-, h⟩
      · cases negative with
        | true =>
          rw [if_pos rfl] at h
          split at h
          · cases h
          · next hne =>
            have hvalue := Number.eq_of_ofInt? h
            exact ⟨hvalue, fun _ hi => hne (by omega)⟩
        | false =>
          rw [if_neg (by decide)] at h
          exact ⟨Number.eq_of_ofInt? h, fun h => absurd h Bool.false_ne_true⟩
      · exact absurd h readFloat_ne_integer
    | scaled literal => exact absurd h readFloat_ne_integer
    | broken atEnd => cases h
  · rintro ⟨negative, digits, rfl, hvalue, hzero⟩
    unfold read
    refine orElse_eq_ok_iff.2 (.inl ?_)
    cases negative with
    | true =>
      have hi : -(Nat.ofDigitChars 10 digits 0 : Int) = i := hvalue
      have hne : Nat.ofDigitChars 10 digits 0 ≠ 0 := fun hdigits => hzero rfl (by omega)
      rw [if_pos rfl, if_neg hne, hi, Number.ofInt?_of_held held]
    | false =>
      have hi : (Nat.ofDigitChars 10 digits 0 : Int) = i := hvalue
      rw [if_neg (by decide), hi, Number.ofInt?_of_held held]

/-! ## Members under distinct names -/

section
variable {name : String} {members : List (StringLexeme × Node)}

/-- A name that no key is read as has no values. -/
theorem named_eq_nil_of_notMem (h : Except.ok name ∉ members.map fun m => m.1.read) :
    named name members = [] := by
  refine List.filterMap_eq_nil_iff.2 fun m hm => if_neg fun hname => h ?_
  exact hname ▸ List.mem_map_of_mem hm

/-- There is one member under a name at most. -/
theorem named_eq_of_head? (hdistinct : (members.map fun m => m.1.read).Nodup) {v : Node}
    (h : (named name members).head? = some v) : named name members = [v] := by
  induction members with
  | nil => cases h
  | cons m members ih =>
    obtain ⟨hm, hdistinct⟩ := List.nodup_cons.1 hdistinct
    by_cases hname : m.1.read = .ok name
    · rw [named_cons_of_eq hname, List.head?_cons] at h
      obtain rfl := Option.some.inj h
      rw [named_cons_of_eq hname, named_eq_nil_of_notMem (hname ▸ hm)]
    · rw [named_cons_of_ne hname] at h ⊢
      exact ih hdistinct h

end

/-- The parts of a definite value are definite. -/
theorem Node.Definite.part {n v : Node} (hn : n.Definite) {names : List String} {name : String}
    (h : n.part? names name = some v) : v.Definite := by
  cases hn with
  | array hitems => exact hitems v (List.mem_of_getElem? h)
  | object _ _ hvalues =>
    obtain ⟨m, hm, hread⟩ := List.mem_filterMap.1 (List.mem_of_head? h)
    split at hread
    · exact Option.some.inj hread ▸ hvalues m hm
    · cases hread
  | _ => cases h

namespace Fields

/-- A record is made of members with distinct names if it takes the one under the name of each
field, whatever the other members are. -/
theorem made_of_takes {ctx : Context} {τ : Type} {fs : Fields τ} {ms : List (StringLexeme × Node)}
    {as : τ} (hnames : fs.names.Nodup) (hdistinct : (ms.map fun m => m.1.read).Nodup)
    (hother : ∀ m ∈ ms, (∃ name, m.1.read = .ok name) ∧ m.2.skip = .ok ())
    (h : fs.Takes ctx (fun name => (named name ms).head?) as) : fs.Made ctx ms as := by
  induction fs generalizing ms with
  | nil => exact hother
  | cons field rest ih =>
    obtain ⟨hfirst, hnames⟩ := List.nodup_cons.1 hnames
    have hsub : List.Sublist (without field.name ms) ms := List.filter_sublist
    refine ⟨?_, ih hnames (hdistinct.sublist (hsub.map _)) (fun m hm => hother m (hsub.subset hm))
      (h.2.congr fun name hname => ?_)⟩
    · obtain ⟨hnone, hdefault⟩ | ⟨v, hv, hdecode⟩ := h.1
      · exact .inl ⟨List.head?_eq_none_iff.1 hnone, hdefault⟩
      · exact .inr ⟨v, named_eq_of_head? hdistinct hv, hdecode⟩
    · have hne : name ≠ field.name := fun heq => hfirst (heq ▸ hname)
      rw [named_without hne]

/-! ## Records from arrays -/

/-- What is left of an array when a record has been read from it. -/
theorem surplus_of_takeAll {record : String} {total : Nat} {ctx : Context} {ending : ArrayEnd}
    {τ : Type} {fs : Fields τ} {index : Nat} {items surplus : List Node} {as : τ}
    (h : takeAll record total ctx ending fs index items = .ok (as, surplus)) :
    surplus = items.drop fs.count := by
  induction fs generalizing index items with
  | nil =>
    cases h
    rfl
  | cons field rest ih =>
    cases items with
    | nil =>
      obtain ⟨_, -, h⟩ := ok_of_bind h
      split at h
      · obtain ⟨⟨others, left⟩, hothers, h⟩ := ok_of_bind h
        cases h
        rw [ih hothers, List.drop_nil, List.drop_nil]
      · cases h
    | cons v items =>
      obtain ⟨a, -, h⟩ := ok_of_bind h
      obtain ⟨⟨others, left⟩, hothers, h⟩ := ok_of_bind h
      cases h
      rw [ih hothers]
      rfl

/-- A record is read from an array that is closed if it takes the elements in the places of its
fields. -/
theorem takeAll_of_takes (record : String) (total : Nat) {ctx : Context} {τ : Type}
    {fs : Fields τ} (index : Nat) {items : List Node} {as : τ} (hnames : fs.names.Nodup)
    (h : fs.Takes ctx (fun name => items[fs.names.idxOf name]?) as) :
    takeAll record total ctx .closed fs index items = .ok (as, items.drop fs.count) := by
  induction fs generalizing index items with
  | nil => rfl
  | cons field rest ih =>
    obtain ⟨hfirst, hnames⟩ := List.nodup_cons.1 hnames
    have hlater : ∀ name ∈ rest.names,
        (Fields.cons field rest).names.idxOf name = rest.names.idxOf name + 1 := fun name hname =>
      List.idxOf_cons_ne _ fun heq => hfirst (heq ▸ hname)
    have hself : (Fields.cons field rest).names.idxOf field.name = 0 := List.idxOf_cons_self
    obtain ⟨hfield, hrest⟩ := h
    dsimp only at hfield
    rw [hself] at hfield
    cases items with
    | nil =>
      obtain ⟨-, hdefault⟩ | ⟨v, hv, -⟩ := hfield
      · have hothers := @ih (index + 1) [] _ hnames (hrest.congr fun _ _ => rfl)
        rw [List.drop_nil] at hothers ⊢
        rw [takeAll, hdefault]
        exact bind_of_ok hothers _
      · cases hv
    | cons v items =>
      obtain ⟨hnone, -⟩ | ⟨w, hw, hdecode⟩ := hfield
      · cases hnone
      · obtain rfl := Option.some.inj hw
        have hothers := ih (index + 1) hnames
          (hrest.congr fun name hname => by rw [hlater name hname, List.getElem?_cons_succ])
        rw [takeAll, hdecode]
        exact bind_of_ok hothers _

/-- Behind the last field an array that is closed must have no more elements. -/
theorem closeArray_eq_ok_iff {total : Nat} {ctx : Context} {surplus : List Node} :
    closeArray total ctx surplus .closed = .ok () ↔ surplus = [] := by
  unfold closeArray
  split
  · next hempty => exact iff_of_true rfl (List.isEmpty_iff.1 hempty)
  · next hsurplus =>
    refine iff_of_false (fun h => ?_) fun h => hsurplus (List.isEmpty_iff.2 h)
    split at h <;> cases h

/-- The shapes that a record with so many fields may have: an object, or an array with no more
elements. -/
inductive IsRecord (count : Nat) : Node → Prop
  | object {members : List (StringLexeme × Node)} {ending : ObjectEnd} :
      IsRecord count (.object members ending)
  | array {items : List Node} {ending : ArrayEnd} (h : items.length ≤ count) :
      IsRecord count (.array items ending)

/-- A record is read from a definite value exactly if the value has the shape of a record and each
field takes its part. -/
theorem decode_eq_ok_iff {τ : Type} {fs : Fields τ} (hnames : fs.names.Nodup) {record : String}
    {ctx inside : Context} (henter : ctx.enter = .ok inside) {n : Node} (hn : n.Definite) {as : τ} :
    fs.decode record ctx n = .ok as ↔
      IsRecord fs.count n ∧ fs.Takes inside (fun name => n.part? fs.names name) as := by
  cases hn with
  | @object members hkeys hdistinct h =>
    have hother : ∀ m ∈ members, (∃ name, m.1.read = .ok name) ∧ m.2.skip = .ok () :=
      fun m hm => ⟨hkeys m hm, (h m hm).wellFormed.skip⟩
    rw [decode_object_eq_ok_iff]
    constructor
    · rintro ⟨inside', henter', -, hmade⟩
      obtain rfl := Except.ok.inj (henter.symm.trans henter')
      exact ⟨.object, takes_of_made hnames hmade⟩
    · rintro ⟨-, htakes⟩
      exact ⟨inside, henter, rfl, made_of_takes hnames hdistinct hother htakes⟩
  | @array items h =>
    constructor
    · intro hread
      obtain ⟨inside', henter', hread⟩ := ok_of_bind hread
      obtain rfl := Except.ok.inj (henter.symm.trans henter')
      obtain ⟨⟨values, surplus⟩, htake, hread⟩ := ok_of_bind hread
      obtain ⟨_, hclose, hread⟩ := ok_of_bind hread
      cases hread
      have hsurplus := surplus_of_takeAll htake
      rw [closeArray_eq_ok_iff.1 hclose, eq_comm, List.drop_eq_nil_iff] at hsurplus
      exact ⟨.array hsurplus, takes_of_takeAll hnames htake⟩
    · rintro ⟨hshape, htakes⟩
      cases hshape with
      | array hlength =>
        have htake := takeAll_of_takes record fs.count 0 hnames htakes
        rw [List.drop_eq_nil_iff.2 hlength] at htake
        have hclose : closeArray fs.count ctx [] .closed = .ok () := closeArray_eq_ok_iff.2 rfl
        exact (bind_of_ok henter _).trans ((bind_of_ok htake _).trans (bind_of_ok hclose _))
  | _ =>
    refine iff_of_false Node.mismatch_ne_ok ?_
    rintro ⟨⟨⟩, -⟩

end Fields

namespace Decoder

/-- From a definite value the decoder reads exactly what the value means, wherever `depth` levels
may still be entered. -/
def ExactFor {α : Type} (d : Decoder α) (depth : Nat) (means : Node → α → Prop) : Prop :=
  ∀ ctx n a, depth ≤ ctx.room → n.Definite → (d ctx n = .ok a ↔ means n a)

section
variable {α : Type} {d : Decoder α} {depth : Nat} {means : Node → α → Prop}

/-- What a decoder finds only if it is meant, it reads exactly if it reads all that is meant. -/
theorem SoundFor.exactFor (hsound : d.SoundFor means)
    (hcomplete : ∀ ctx n a, depth ≤ ctx.room → n.Definite → means n a → d ctx n = .ok a) :
    d.ExactFor depth means :=
  fun ctx n a hroom hn => ⟨hsound ctx n a, hcomplete ctx n a hroom hn⟩

/-- Strings, and only strings, are read as texts. -/
theorem exactFor_string : string.ExactFor 0 Node.MeansText :=
  soundFor_string.exactFor fun _ _ _ _ _ h => by
    cases h with
    | string h => exact h

/-- A number is read however few levels may be entered. -/
theorem double_of_means (ctx : Context) {n : Node} {x : Binary64} (h : n.MeansDouble x) :
    double ctx n = .ok x := by
  obtain ⟨number, hnumber, rfl⟩ := h
  cases hnumber with
  | number h => exact bind_of_ok h _

/-- The elements of an array are read one after the other. -/
theorem elements_of_forall₂ {ctx : Context} {ns : List Node} {as : List α}
    (hd : ∀ n ∈ ns, ∀ a, means n a → d ctx n = .ok a) (h : List.Forall₂ means ns as) :
    elements d ctx ns = .ok as := by
  induction h with
  | nil => rfl
  | cons hfirst _ ih =>
    obtain ⟨hn, hns⟩ := List.forall_mem_cons.1 hd
    rw [elements, hn _ hfirst]
    exact bind_of_ok (ih hns) _

/-- Arrays of what the reader of elements accepts, and only these, are read as lists. -/
theorem ExactFor.list (hd : d.ExactFor depth means) (hsound : d.SoundFor means) :
    (Decoder.list d).ExactFor (depth + 1) (Node.MeansItems means) := by
  refine hsound.list.exactFor fun ctx n as hroom hn h => ?_
  cases h with
  | array h =>
    cases hn with
    | array hitems =>
      obtain ⟨inside, henter, hinside⟩ := Context.enter_of_le hroom
      have helements := elements_of_forall₂
        (fun n hn a => (hd inside n a hinside (hitems n hn)).2) h
      exact (bind_of_ok henter _).trans (bind_of_ok helements _)

/-! ## The only member of an object -/

/-- The members of a table are read one after the other. -/
theorem entries_eq_ok_iff {ctx : Context} {ms : List (StringLexeme × Node)}
    {xs : List (String × α)} :
    entries d ctx ms = .ok xs ↔
      List.Forall₂ (fun m x => m.1.read = .ok x.1 ∧ d ctx m.2 = .ok x.2) ms xs := by
  constructor
  · intro h
    induction ms generalizing xs with
    | nil =>
      cases h
      exact .nil
    | cons m ms ih =>
      obtain ⟨key, hkey, h⟩ := ok_of_bind h
      obtain ⟨a, ha, h⟩ := ok_of_bind h
      obtain ⟨rest, hrest, h⟩ := ok_of_bind h
      cases h
      exact .cons ⟨hkey, ha⟩ (ih hrest)
  · intro h
    induction h with
    | nil => rfl
    | cons hfirst _ ih =>
      rw [entries, hfirst.1]
      exact (bind_of_ok hfirst.2 _).trans (bind_of_ok ih _)

/-- Entries have the keys that their members are read to have. -/
theorem map_read_eq {ctx : Context} {ms : List (StringLexeme × Node)} {xs : List (String × α)}
    (h : List.Forall₂ (fun m x => m.1.read = .ok x.1 ∧ d ctx m.2 = .ok x.2) ms xs) :
    (ms.map fun m => m.1.read) = xs.map (Except.ok ∘ Prod.fst) := by
  induction h with
  | nil => rfl
  | cons hfirst _ ih => rw [List.map_cons, List.map_cons, ih, hfirst.1, Function.comp_apply]

/-- A member under a new name makes a table longer. -/
theorem length_insertMember {key : String} {a : α} {ms : List (String × α)}
    (h : ∀ m ∈ ms, m.1 ≠ key) : (insertMember key a ms).length = ms.length + 1 := by
  induction ms with
  | nil => rfl
  | cons first rest ih =>
    obtain ⟨hfirst, hrest⟩ := List.forall_mem_cons.1 h
    unfold insertMember
    split
    · rfl
    · rw [if_neg fun heq => hfirst heq.symm, List.length_cons, List.length_cons, ih hrest]

/-- Sorting keeps all members if their names are distinct. -/
theorem length_sortMembers {ms : List (String × α)} (hdistinct : (ms.map Prod.fst).Nodup) :
    (sortMembers ms).length = ms.length := by
  have hfold : ∀ sorted : List (String × α), (∀ s ∈ sorted, ∀ m ∈ ms, s.1 ≠ m.1) →
      (ms.foldl (fun sorted m => insertMember m.1 m.2 sorted) sorted).length
        = sorted.length + ms.length := by
    induction ms with
    | nil => exact fun sorted _ => rfl
    | cons m ms ih =>
      intro sorted hnew
      obtain ⟨hm, hdistinct⟩ := List.nodup_cons.1 hdistinct
      rw [List.foldl_cons, ih hdistinct, length_insertMember fun s hs =>
        hnew s hs m List.mem_cons_self, List.length_cons]
      · omega
      · intro s hs m' hm'
        rcases mem_of_mem_insertMember hs with rfl | hs
        · exact fun heq => hm (heq ▸ List.mem_map_of_mem hm')
        · exact hnew s hs m' (List.mem_cons_of_mem _ hm')
  exact (hfold [] fun _ hs => nomatch hs).trans (Nat.zero_add _)

/-- A table with one member is read from a definite object if this is its only member. -/
theorem ExactFor.table_singleton (hd : d.ExactFor depth means) {ctx : Context} {n : Node}
    (hroom : depth + 1 ≤ ctx.room) (hn : n.Definite) {name : String} {a : α} :
    table d ctx n = .ok [(name, a)] ↔ ∃ v, Node.OnlyMember name v n ∧ means v a := by
  obtain ⟨inside, henter, hinside⟩ := Context.enter_of_le hroom
  constructor
  · intro h
    cases hn with
    | @object members hkeys hdistinct hvalues =>
      obtain ⟨inside', henter', h⟩ := ok_of_bind h
      obtain rfl := Except.ok.inj (henter.symm.trans henter')
      obtain ⟨xs, hentries, h⟩ := ok_of_bind h
      have hsort : sortMembers xs = [(name, a)] := Except.ok.inj h
      have hall := entries_eq_ok_iff.1 hentries
      have hnames : (xs.map Prod.fst).Nodup := by
        refine List.Nodup.of_map (fun name => (Except.ok name : Except Fault String)) ?_
        rw [List.map_map]
        exact map_read_eq hall ▸ hdistinct
      have hlength := length_sortMembers hnames
      rw [hsort] at hlength
      obtain ⟨x, rfl⟩ := List.length_eq_one_iff.1 hlength.symm
      obtain rfl : (name, a) = x := List.mem_singleton.1
        (mem_of_mem_sortMembers (hsort ▸ List.mem_singleton_self _))
      cases hall with
      | @cons m _ ms _ hfirst hrest =>
        cases hrest
        exact ⟨m.2, .object hfirst.1,
          (hd inside m.2 a hinside (hvalues m List.mem_cons_self)).1 hfirst.2⟩
    | _ => exact absurd h Node.mismatch_ne_ok
  · rintro ⟨v, hmember, hv⟩
    cases hmember with
    | @object key hkey =>
      cases hn with
      | object _ _ hvalues =>
        have hread := (hd inside v a hinside (hvalues (key, v) List.mem_cons_self)).2 hv
        have hentries : entries d inside [(key, v)] = .ok [(name, a)] :=
          entries_eq_ok_iff.2 (.cons ⟨hkey, hread⟩ .nil)
        exact (bind_of_ok henter _).trans (bind_of_ok hentries _)

/-! ## Variants -/

/-- A variant that cannot stand alone is read exactly from an object whose only member has the
name of the variant and holds its content. -/
theorem oneOf_eq_ok_iff {variants : List (Variant α)} (hbare : ∀ w ∈ variants, w.bare = none)
    {ctx inside : Context} (henter : ctx.enter = .ok inside) {n : Node} {a : α} :
    oneOf variants ctx n = .ok a ↔
      ∃ name v w, Node.OnlyMember name v n ∧ Variant.find variants name = .ok w ∧
        w.content inside v = .ok a := by
  constructor
  · intro h
    unfold oneOf at h
    split at h
    · -- a bare name
      obtain ⟨name, -, h⟩ := ok_of_bind h
      obtain ⟨w, hfind, h⟩ := ok_of_bind h
      rw [hbare w (mem_of_find hfind)] at h
      cases h
    · obtain ⟨inside', henter', h⟩ := ok_of_bind h
      obtain rfl := Except.ok.inj (henter.symm.trans henter')
      obtain ⟨name, hkey, h⟩ := ok_of_bind h
      obtain ⟨w, hfind, h⟩ := ok_of_bind h
      obtain ⟨b, hread, h⟩ := ok_of_bind h
      split at h
      · cases h
        exact ⟨name, _, w, .object hkey, hfind, hread⟩
      · cases h
      · cases h
    · -- without a member the object is at fault, whatever stands behind the brace
      obtain ⟨inside, -, h⟩ := ok_of_bind h
      split at h
      · cases h
      · obtain ⟨name, -, h⟩ := ok_of_bind h
        obtain ⟨w, -, h⟩ := ok_of_bind h
        cases h
      · obtain ⟨_, -, h⟩ := ok_of_bind h
        cases h
    · cases h
    · cases h
  · rintro ⟨name, v, w, hmember, hfind, hread⟩
    cases hmember with
    | object hkey =>
      exact (bind_of_ok henter _).trans
        ((bind_of_ok hkey _).trans ((bind_of_ok hfind _).trans (bind_of_ok hread _)))

/-- A variant that is found has the name that was looked for. -/
theorem name_of_find {variants : List (Variant α)} {name : String} {w : Variant α}
    (h : Variant.find variants name = .ok w) : w.name = name := by
  unfold Variant.find at h
  split at h
  · next hfind =>
    cases h
    have hname := List.find?_some hfind
    exact of_decide_eq_true hname
  · cases h

/-- A value of one of several kinds is the content behind the name of its kind. -/
theorem ExactFor.oneOf {variants : List (Variant α)} {means : String → Node → α → Prop}
    (hbare : ∀ w ∈ variants, w.bare = none)
    (hknown : ∀ name v a, means name v a → ∃ w, Variant.find variants name = .ok w)
    (hcontent : ∀ w ∈ variants, w.content.ExactFor depth (means w.name)) :
    (Decoder.oneOf variants).ExactFor (depth + 1) fun n a =>
      ∃ name v, Node.OnlyMember name v n ∧ means name v a := by
  intro ctx n a hroom hn
  obtain ⟨inside, henter, hinside⟩ := Context.enter_of_le hroom
  rw [oneOf_eq_ok_iff hbare henter]
  constructor
  · rintro ⟨name, v, w, hmember, hfind, hread⟩
    obtain rfl := name_of_find hfind
    have hexact := hcontent w (mem_of_find hfind) inside v a hinside (hmember.definite hn)
    exact ⟨w.name, v, hmember, hexact.1 hread⟩
  · rintro ⟨name, v, hmember, hmeans⟩
    obtain ⟨w, hfind⟩ := hknown name v a hmeans
    obtain rfl := name_of_find hfind
    have hexact := hcontent w (mem_of_find hfind) inside v a hinside (hmember.definite hn)
    exact ⟨w.name, v, w, hmember, hfind, hexact.2 hmeans⟩

end

end Decoder

end MovieCatalog.Json
