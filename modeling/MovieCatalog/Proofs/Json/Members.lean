import MovieCatalog.Proofs.Json.Record

/-!
# Records from members in any order

A record is read from an object exactly if every key can be read, no field is named twice, each
member under the name of a field is read by the reader of the field, each other member can be passed
over, and no field without a default is left out (`Fields.decode_object_eq_ok_iff`). Nothing in this
(`Fields.Made`) depends on the order of the members. Each value of a record, whether it is read from
an object or from an array, is what the reader of its field makes of the part of the tree for this
field (`Node.part?`), or its default if there is no such part (`Fields.takes_of_decode`).
-/

namespace MovieCatalog.Json

/-! ## Members under a name -/

/-- The values of the members under a name. -/
def named (name : String) (members : List (StringLexeme × Node)) : List Node :=
  members.filterMap fun m => if m.1.read = .ok name then some m.2 else none

/-- The members that are not under a name. -/
def without (name : String) (members : List (StringLexeme × Node)) : List (StringLexeme × Node) :=
  members.filter fun m => m.1.read ≠ .ok name

section
variable {name : String} {members ms ns : List (StringLexeme × Node)} {m : StringLexeme × Node}

theorem named_cons_of_eq (h : m.1.read = .ok name) :
    named name (m :: members) = m.2 :: named name members :=
  List.filterMap_cons_some (if_pos h)

theorem named_cons_of_ne (h : m.1.read ≠ .ok name) :
    named name (m :: members) = named name members :=
  List.filterMap_cons_none (if_neg h)

theorem without_cons_of_eq (h : m.1.read = .ok name) :
    without name (m :: members) = without name members :=
  List.filter_cons_of_neg (by simpa using h)

theorem without_cons_of_ne (h : m.1.read ≠ .ok name) :
    without name (m :: members) = m :: without name members :=
  List.filter_cons_of_pos (by simpa using h)

theorem named_append (name : String) (ms ns : List (StringLexeme × Node)) :
    named name (ms ++ ns) = named name ms ++ named name ns :=
  List.filterMap_append

theorem without_append (name : String) (ms ns : List (StringLexeme × Node)) :
    without name (ms ++ ns) = without name ms ++ without name ns :=
  List.filter_append ..

/-- The members under one name are not among those under another. -/
theorem named_without {other : String} (h : name ≠ other) (members : List (StringLexeme × Node)) :
    named name (without other members) = named name members := by
  induction members with
  | nil => rfl
  | cons m rest ih =>
    by_cases hother : m.1.read = .ok other
    · have hname : m.1.read ≠ .ok name := fun heq =>
        h (Except.ok.inj (heq.symm.trans hother))
      rw [without_cons_of_eq hother, named_cons_of_ne hname, ih]
    · rw [without_cons_of_ne hother]
      by_cases hname : m.1.read = .ok name
      · rw [named_cons_of_eq hname, named_cons_of_eq hname, ih]
      · rw [named_cons_of_ne hname, named_cons_of_ne hname, ih]

end

/-- Among members with distinct keys there is one under each key. -/
theorem named_memberNodes {key : String} {v : Json} {members : List (String × Json)}
    (hkeys : (members.map Prod.fst).Nodup) (h : (key, v) ∈ members) :
    named key (memberNodes members) = [v.node] := by
  induction members with
  | nil => exact absurd h List.not_mem_nil
  | cons m rest ih =>
    obtain ⟨hfirst, hrest⟩ := List.nodup_cons.1 hkeys
    have hread := StringLexeme.read_ofString m.1
    rw [memberNodes]
    rcases List.mem_cons.1 h with rfl | h
    · have hnone : named key (memberNodes rest) = [] := by
        refine List.filterMap_eq_nil_iff.2 fun n hn => if_neg fun heq => hfirst ?_
        rw [memberNodes_eq_map] at hn
        obtain ⟨l, hl, rfl⟩ := List.mem_map.1 hn
        have hkey := Except.ok.inj ((StringLexeme.read_ofString l.1).symm.trans heq)
        exact List.mem_map.2 ⟨l, hl, hkey⟩
      rw [named_cons_of_eq hread, hnone]
    · have hne : m.1 ≠ key := fun heq => hfirst (heq ▸ List.mem_map_of_mem h)
      rw [named_cons_of_ne fun heq => hne (Except.ok.inj (hread.symm.trans heq)), ih hrest h]

/-- The part of a tree for a field of a record with given names: in an object the value under the
name of the field, in an array the element in the place of the field. -/
def Node.part? (names : List String) (name : String) : Node → Option Node
  | .object members _ => (named name members).head?
  | .array items _ => items[names.idxOf name]?
  | _ => none

namespace Fields

/-! ## Objects -/

/-- The record is made of the members: for each field one member under its name that the field's
reader reads, or none and a default; and the members under no field's name can be passed over. -/
def Made (ctx : Context) : {τ : Type} → Fields τ → List (StringLexeme × Node) → τ → Prop
  | _, .nil, ms, _ => ∀ m ∈ ms, (∃ name, m.1.read = .ok name) ∧ m.2.skip = .ok ()
  | _, .cons field rest, ms, as =>
    ((named field.name ms = [] ∧ field.default = some as.1) ∨
      ∃ v, named field.name ms = [v] ∧ field.decode ctx v = .ok as.1) ∧
    rest.Made ctx (without field.name ms) as.2

/-- Members are read one after the other: the key first, which must not name a field again, then the
value. -/
theorem putAll_cons_member_iff {τ : Type} {fs : Fields τ} {ctx : Context} {m : StringLexeme × Node}
    {ms : List (StringLexeme × Node)} {slots slots' : fs.Slots} :
    fs.putAll ctx (m :: ms) slots = .ok slots' ↔
      ∃ name between, m.1.read = .ok name ∧ fs.checkNew name slots = .ok () ∧
        fs.put ctx name m.2 slots = .ok between ∧ fs.putAll ctx ms between = .ok slots' := by
  constructor
  · intro h
    obtain ⟨name, hread, h⟩ := ok_of_bind h
    obtain ⟨_, hnew, h⟩ := ok_of_bind h
    obtain ⟨between, hput, h⟩ := ok_of_bind h
    exact ⟨name, between, hread, hnew, hput, h⟩
  · rintro ⟨name, between, hread, hnew, hput, h⟩
    rw [putAll, hread]
    exact (bind_of_ok hnew _).trans ((bind_of_ok hput _).trans h)

section
variable {α τ : Type} {field : Field α} {rest : Fields τ} {ctx : Context}

/-- The places of a record with a first field are one for this field and those of the others. -/
theorem Slots.exists_cons (slots : (Fields.cons field rest).Slots) :
    ∃ a others, slots = .cons a others :=
  ⟨slots.1, slots.2, rfl⟩

/-- A field that is named again is not new. -/
theorem eq_none_of_checkNew {a : Option α} {slots : rest.Slots}
    (h : (Fields.cons field rest).checkNew field.name (.cons a slots) = .ok ()) : a = none := by
  cases a with
  | none => rfl
  | some b =>
    have hcheck : (Fields.cons field rest).checkNew field.name (.cons (some b) slots)
        = .error (.duplicateField field.name) := if_pos rfl
    rw [hcheck] at h
    cases h

/-- The reader of the first field reads the member under its name. -/
theorem exists_of_put_self {n : Node} {a : Option α} {slots : rest.Slots}
    {between : (Fields.cons field rest).Slots}
    (h : (Fields.cons field rest).put ctx field.name n (.cons a slots) = .ok between) :
    ∃ b, field.decode ctx n = .ok b ∧ between = .cons (some b) slots := by
  have hput : (Fields.cons field rest).put ctx field.name n (.cons a slots)
      = (do return .cons (some (← field.decode ctx n)) slots) := if_pos rfl
  rw [hput] at h
  obtain ⟨b, hdecode, h⟩ := ok_of_bind h
  cases h
  exact ⟨b, hdecode, rfl⟩

/-- The place of the first field stays as it is without a member under its name, and takes the only
such member if it was empty; the other members go to the other fields. -/
theorem putAll_cons_eq_ok_iff {ms : List (StringLexeme × Node)} {a a' : Option α}
    {slots slots' : rest.Slots} :
    (Fields.cons field rest).putAll ctx ms (.cons a slots) = .ok (.cons a' slots') ↔
      ((named field.name ms = [] ∧ a' = a) ∨
        a = none ∧ ∃ v b, named field.name ms = [v] ∧ field.decode ctx v = .ok b ∧ a' = some b) ∧
      rest.putAll ctx (without field.name ms) slots = .ok slots' := by
  induction ms generalizing a slots with
  | nil =>
    constructor
    · intro h
      cases h
      exact ⟨.inl ⟨rfl, rfl⟩, rfl⟩
    · rintro ⟨⟨-, rfl⟩ | ⟨-, v, b, h, -⟩, hrest⟩
      · cases hrest
        rfl
      · cases h
  | cons m ms ih =>
    by_cases hname : m.1.read = .ok field.name
    · rw [putAll_cons_member_iff, named_cons_of_eq hname, without_cons_of_eq hname]
      constructor
      · rintro ⟨name, between, hread, hnew, hput, hrest⟩
        obtain rfl := Except.ok.inj (hread.symm.trans hname)
        obtain rfl := eq_none_of_checkNew hnew
        obtain ⟨b, hdecode, rfl⟩ := exists_of_put_self hput
        obtain ⟨⟨hnone, rfl⟩ | ⟨h, -⟩, hlater⟩ := ih.1 hrest
        · exact ⟨.inr ⟨rfl, m.2, b, by rw [hnone], hdecode, rfl⟩, hlater⟩
        · cases h
      · rintro ⟨⟨h, -⟩ | ⟨rfl, v, b, hv, hdecode, rfl⟩, hrest⟩
        · cases h
        · obtain ⟨rfl, hnone⟩ := List.cons.inj hv
          have hlater := ih.2 ⟨.inl ⟨hnone, rfl⟩, hrest⟩
          exact ⟨field.name, .cons (some b) slots, hname, checkNew_self field slots,
            put_self hdecode slots, hlater⟩
    · rw [putAll_cons_member_iff, named_cons_of_ne hname, without_cons_of_ne hname]
      constructor
      · rintro ⟨name, between, hread, hnew, hput, hrest⟩
        have hne : name ≠ field.name := fun heq => hname (heq ▸ hread)
        rw [checkNew_of_ne hne] at hnew
        rw [put_of_ne ctx hne] at hput
        obtain ⟨others, hothers, h⟩ := ok_of_bind hput
        cases h
        obtain ⟨hfirst, hlater⟩ := ih.1 hrest
        exact ⟨hfirst, putAll_cons_member_iff.2 ⟨name, others, hread, hnew, hothers, hlater⟩⟩
      · rintro ⟨hfirst, hrest⟩
        obtain ⟨name, others, hread, hnew, hput, hlater⟩ := putAll_cons_member_iff.1 hrest
        have hne : name ≠ field.name := fun heq => hname (heq ▸ hread)
        refine ⟨name, .cons a others, hread, ?_, ?_, ih.2 ⟨hfirst, hlater⟩⟩
        · rw [checkNew_of_ne hne, hnew]
        · rw [put_of_ne ctx hne, hput]
          rfl

end

/-- A record without fields takes no member, but every key must be readable. -/
theorem putAll_nil_eq_ok_iff {ctx : Context} {ms : List (StringLexeme × Node)}
    {slots : Fields.nil.Slots} :
    Fields.nil.putAll ctx ms slots = .ok slots ↔
      ∀ m ∈ ms, (∃ name, m.1.read = .ok name) ∧ m.2.skip = .ok () := by
  induction ms with
  | nil => exact ⟨fun _ m hm => (nomatch hm), fun _ => rfl⟩
  | cons m ms ih =>
    have hput : ∀ name, Fields.nil.put ctx name m.2 slots = .ok slots ↔ m.2.skip = .ok () := by
      intro name
      have hskip : Fields.nil.put ctx name m.2 slots = (do m.2.skip; return slots) := rfl
      rw [hskip]
      cases m.2.skip <;> simp [bind, Except.bind, pure, Except.pure]
    rw [putAll_cons_member_iff, List.forall_mem_cons, ← ih]
    constructor
    · rintro ⟨name, ⟨⟩, hread, -, hskip, hrest⟩
      exact ⟨⟨⟨name, hread⟩, (hput name).1 hskip⟩, hrest⟩
    · rintro ⟨⟨⟨name, hread⟩, hskip⟩, hrest⟩
      exact ⟨name, slots, hread, rfl, (hput name).2 hskip, hrest⟩

/-- The members fill the places of a record exactly if it is made of them. -/
theorem putAll_finish_iff {τ : Type} {fs : Fields τ} {ctx : Context}
    {ms : List (StringLexeme × Node)} {as : τ} :
    (∃ slots, fs.putAll ctx ms fs.empty = .ok slots ∧ fs.finish slots = .ok as) ↔
      fs.Made ctx ms as := by
  induction fs generalizing ms with
  | nil =>
    constructor
    · rintro ⟨⟨⟩, hput, -⟩
      exact putAll_nil_eq_ok_iff.1 hput
    · exact fun h => ⟨(), putAll_nil_eq_ok_iff.2 h, rfl⟩
  | cons field rest ih =>
    constructor
    · rintro ⟨slots, hput, hfinish⟩
      obtain ⟨a, slots, rfl⟩ := slots.exists_cons
      obtain ⟨hfirst, hrest⟩ := putAll_cons_eq_ok_iff.1 hput
      rw [finish_cons] at hfinish
      split at hfinish
      · next b hvalue =>
        obtain ⟨bs, hbs, h⟩ := ok_of_bind hfinish
        cases h
        refine ⟨?_, ih.1 ⟨slots, hrest, hbs⟩⟩
        obtain ⟨hnone, rfl⟩ | ⟨-, v, c, hv, hdecode, rfl⟩ := hfirst
        · exact .inl ⟨hnone, hvalue⟩
        · cases hvalue
          exact .inr ⟨v, hv, hdecode⟩
      · cases hfinish
    · rintro ⟨hfirst, hrest⟩
      obtain ⟨slots, hput, hfinish⟩ := ih.2 hrest
      obtain ⟨hnone, hdefault⟩ | ⟨v, hv, hdecode⟩ := hfirst
      · refine ⟨.cons none slots, putAll_cons_eq_ok_iff.2 ⟨.inl ⟨hnone, rfl⟩, hput⟩, ?_⟩
        rw [finish_cons_of_eq_some (.cons none slots) hdefault]
        exact bind_of_ok hfinish _
      · refine ⟨.cons (some as.1) slots,
          putAll_cons_eq_ok_iff.2 ⟨.inr ⟨rfl, v, as.1, hv, hdecode, rfl⟩, hput⟩, ?_⟩
        rw [finish_cons_of_eq_some (.cons (some as.1) slots) rfl]
        exact bind_of_ok hfinish _

/-- Behind the members an object must be closed. -/
theorem close_eq_ok_iff {τ : Type} {fs : Fields τ} {slots : fs.Slots} {ending : ObjectEnd} :
    fs.close slots ending = .ok () ↔ ending = .closed := by
  constructor
  · intro h
    cases ending with
    | closed => rfl
    | noColon key atEnd =>
      obtain ⟨name, -, h⟩ := ok_of_bind h
      obtain ⟨_, -, h⟩ := ok_of_bind h
      cases h
    | textEnd | junk | comma | commaTextEnd | noKey | cut => cases h
  · rintro rfl
    rfl

/-- A record is read from an object exactly if there is room for a level, the object is closed and
the record is made of its members. -/
theorem decode_object_eq_ok_iff {τ : Type} {fs : Fields τ} {record : String} {ctx : Context}
    {ms : List (StringLexeme × Node)} {ending : ObjectEnd} {as : τ} :
    fs.decode record ctx (.object ms ending) = .ok as ↔
      ∃ inside, ctx.enter = .ok inside ∧ ending = .closed ∧ fs.Made inside ms as := by
  constructor
  · intro h
    obtain ⟨inside, henter, h⟩ := ok_of_bind h
    obtain ⟨slots, hput, h⟩ := ok_of_bind h
    obtain ⟨_, hclose, hfinish⟩ := ok_of_bind h
    exact ⟨inside, henter, close_eq_ok_iff.1 hclose, putAll_finish_iff.1 ⟨slots, hput, hfinish⟩⟩
  · rintro ⟨inside, henter, rfl, hmade⟩
    obtain ⟨slots, hput, hfinish⟩ := putAll_finish_iff.2 hmade
    have hdecode : fs.decode record ctx (.object ms .closed)
        = (do fs.finish (← fs.putAll (← ctx.enter) ms fs.empty)) := rfl
    rw [hdecode, henter]
    exact (bind_of_ok hput _).trans hfinish

/-! ## Parts of a tree -/

/-- Each value of the record is what the reader of its field makes of the part for the field, or the
default if there is no such part. -/
def Takes (ctx : Context) (part : String → Option Node) : {τ : Type} → Fields τ → τ → Prop
  | _, .nil, _ => True
  | _, .cons field rest, as =>
    ((part field.name = none ∧ field.default = some as.1) ∨
      ∃ v, part field.name = some v ∧ field.decode ctx v = .ok as.1) ∧
    rest.Takes ctx part as.2

/-- Only the parts for the fields count. -/
theorem Takes.congr {ctx : Context} {part part' : String → Option Node} {τ : Type} {fs : Fields τ}
    {as : τ} (h : fs.Takes ctx part as) (hpart : ∀ name ∈ fs.names, part' name = part name) :
    fs.Takes ctx part' as := by
  induction fs with
  | nil => trivial
  | cons field rest ih =>
    obtain ⟨hfirst, hrest⟩ := List.forall_mem_cons.1 hpart
    refine ⟨?_, ih h.2 hrest⟩
    rw [hfirst]
    exact h.1

/-- A record takes from an object the members under the names of its fields. -/
theorem takes_of_made {ctx : Context} {τ : Type} {fs : Fields τ} {ms : List (StringLexeme × Node)}
    {as : τ} (hnames : fs.names.Nodup) (h : fs.Made ctx ms as) :
    fs.Takes ctx (fun name => (named name ms).head?) as := by
  induction fs generalizing ms with
  | nil => trivial
  | cons field rest ih =>
    obtain ⟨hfirst, hnames⟩ := List.nodup_cons.1 hnames
    refine ⟨?_, (ih hnames h.2).congr fun name hname => ?_⟩
    · obtain ⟨hnone, hdefault⟩ | ⟨v, hv, hdecode⟩ := h.1
      · exact .inl ⟨congrArg List.head? hnone, hdefault⟩
      · exact .inr ⟨v, congrArg List.head? hv, hdecode⟩
    · have hne : name ≠ field.name := fun heq => hfirst (heq ▸ hname)
      rw [named_without hne]

/-- A record takes from an array the elements in the places of its fields. -/
theorem takes_of_takeAll {record : String} {total : Nat} {ctx : Context} {ending : ArrayEnd}
    {τ : Type} {fs : Fields τ} {index : Nat} {items surplus : List Node} {as : τ}
    (hnames : fs.names.Nodup)
    (h : takeAll record total ctx ending fs index items = .ok (as, surplus)) :
    fs.Takes ctx (fun name => items[fs.names.idxOf name]?) as := by
  induction fs generalizing index items with
  | nil => trivial
  | cons field rest ih =>
    obtain ⟨hfirst, hnames⟩ := List.nodup_cons.1 hnames
    have hlater : ∀ name ∈ rest.names,
        (Fields.cons field rest).names.idxOf name = rest.names.idxOf name + 1 := fun name hname =>
      List.idxOf_cons_ne _ fun heq => hfirst (heq ▸ hname)
    have hself : (Fields.cons field rest).names.idxOf field.name = 0 := List.idxOf_cons_self
    cases items with
    | nil =>
      obtain ⟨_, -, h⟩ := ok_of_bind h
      split at h
      · next a hdefault =>
        obtain ⟨⟨others, left⟩, hothers, h⟩ := ok_of_bind h
        cases h
        exact ⟨.inl ⟨rfl, hdefault⟩, (ih hnames hothers).congr fun _ _ => rfl⟩
      · cases h
    | cons v items =>
      obtain ⟨a, hdecode, h⟩ := ok_of_bind h
      obtain ⟨⟨others, left⟩, hothers, h⟩ := ok_of_bind h
      cases h
      refine ⟨.inr ⟨v, ?_, hdecode⟩, (ih hnames hothers).congr fun name hname => ?_⟩
      · exact congrArg ((v :: items)[·]?) hself
      · rw [hlater name hname, List.getElem?_cons_succ]

/-- However a record is read, from an object or from an array, it takes the parts of the tree for
its fields. -/
theorem takes_of_decode {τ : Type} (fs : Fields τ) {record : String} (hnames : fs.names.Nodup)
    {ctx : Context} {n : Node} {as : τ} (h : fs.decode record ctx n = .ok as) :
    ∃ inside, fs.Takes inside (fun name => n.part? fs.names name) as := by
  cases n with
  | object ms ending =>
    obtain ⟨inside, -, -, hmade⟩ := decode_object_eq_ok_iff.1 h
    exact ⟨inside, takes_of_made hnames hmade⟩
  | array items ending =>
    obtain ⟨inside, -, h⟩ := ok_of_bind h
    obtain ⟨⟨values, surplus⟩, htake, h⟩ := ok_of_bind h
    obtain ⟨_, -, h⟩ := ok_of_bind h
    cases h
    exact ⟨inside, takes_of_takeAll hnames htake⟩
  | _ => exact absurd h Node.mismatch_ne_ok

end Fields

end MovieCatalog.Json
