import MovieCatalog.Proofs.Json.Decode

/-!
# Records written and read

A record is written as an object with its fields in order, from which fields that have their defaults
may be left out (`Fields.Writes`). If the names of the fields are distinct, such an object is read as
the record (`Fields.reads_decode`): a member under the name of a field is put into that field alone,
whatever stands in front of it. Whichever way a record is read, each of its values comes from the
reader of the field or is its default (`Fields.yields_of_decode`).
-/

namespace MovieCatalog.Json

namespace Fields

/-- The names of the fields. -/
def names : {τ : Type} → Fields τ → List String
  | _, .nil => []
  | _, .cons field rest => field.name :: rest.names

/-- The members stand for the fields of a record in order, where a field that has its default may be
left out, and the values of the members are read back where `depth` levels may be entered. -/
inductive Writes (depth : Nat) : {τ : Type} → Fields τ → List (String × Json) → τ → Prop
  | nil : Writes depth .nil [] ()
  | given {α τ : Type} {field : Field α} {rest : Fields τ} {ms : List (String × Json)} {v : Json}
      {a : α} {as : τ} (hread : field.decode.Reads depth v a) (hrest : Writes depth rest ms as) :
      Writes depth (.cons field rest) ((field.name, v) :: ms) (a, as)
  | omitted {α τ : Type} {field : Field α} {rest : Fields τ} {ms : List (String × Json)} {a : α}
      {as : τ} (hdefault : field.default = some a) (hrest : Writes depth rest ms as) :
      Writes depth (.cons field rest) ms (a, as)

/-- Every key names a field. -/
theorem Writes.key_mem {depth : Nat} {τ : Type} {fs : Fields τ} {ms : List (String × Json)} {as : τ}
    (h : fs.Writes depth ms as) : ∀ m ∈ ms, m.1 ∈ fs.names := by
  induction h with
  | nil => exact fun m hm => nomatch hm
  | given hread hrest ih =>
    intro m hm
    rcases List.mem_cons.1 hm with rfl | hm
    · exact List.mem_cons_self
    · exact List.mem_cons_of_mem _ (ih m hm)
  | omitted hdefault hrest ih => exact fun m hm => List.mem_cons_of_mem _ (ih m hm)

/-- A name that no field has is no key. -/
theorem Writes.key_ne {depth : Nat} {τ : Type} {fs : Fields τ} {ms : List (String × Json)} {as : τ}
    (h : fs.Writes depth ms as) {name : String} (hname : name ∉ fs.names) :
    ∀ m ∈ ms, m.1 ≠ name := by
  rintro m hm rfl
  exact hname (h.key_mem m hm)

/-- One member is read after the other. -/
theorem putAll_memberNodes {τ : Type} (fs : Fields τ) (ctx : Context) (name : String) (v : Json)
    (ms : List (String × Json)) (slots : fs.Slots) :
    fs.putAll ctx (memberNodes ((name, v) :: ms)) slots = (do
      fs.checkNew name slots
      fs.putAll ctx (memberNodes ms) (← fs.put ctx name v.node slots)) := by
  rw [memberNodes, putAll, StringLexeme.read_ofString]
  rfl

section
variable {α τ : Type} {field : Field α} {rest : Fields τ}

/-- The places of a record with one more field in front. -/
def Slots.cons (a : Option α) (slots : rest.Slots) : (Fields.cons field rest).Slots :=
  (a, slots)

/-- Whether a name is new is asked of the other fields if it is not the name of the first one. -/
theorem checkNew_of_ne {name : String} (h : name ≠ field.name) (a : Option α)
    (slots : rest.Slots) :
    (Fields.cons field rest).checkNew name (.cons a slots) = rest.checkNew name slots :=
  if_neg h

/-- A member with another name than that of the first field is put in one of the other places. -/
theorem put_of_ne (ctx : Context) {name : String} (h : name ≠ field.name) (n : Node)
    (a : Option α) (slots : rest.Slots) :
    (Fields.cons field rest).put ctx name n (.cons a slots)
      = (do return .cons a (← rest.put ctx name n slots)) :=
  if_neg h

/-- The first field is new as long as its place is empty. -/
theorem checkNew_self (field : Field α) (slots : rest.Slots) :
    (Fields.cons field rest).checkNew field.name (.cons none slots) = .ok () :=
  if_pos rfl

/-- A member with the name of the first field fills its place. -/
theorem put_self {ctx : Context} {n : Node} {a : α} (h : field.decode ctx n = .ok a)
    (slots : rest.Slots) :
    (Fields.cons field rest).put ctx field.name n (.cons none slots)
      = .ok (.cons (some a) slots) := by
  have hput : (Fields.cons field rest).put ctx field.name n (.cons none slots)
      = (do return .cons (some (← field.decode ctx n)) slots) := if_pos rfl
  rw [hput, h]
  rfl

/-- The record has what stands in the first place, or the default. -/
theorem finish_cons (slots : (Fields.cons field rest).Slots) :
    (Fields.cons field rest).finish slots
      = match slots.uncons.1 <|> field.default with
        | some a => (do return (a, ← rest.finish slots.uncons.2))
        | none => .error (.missingField field.name) :=
  rfl

/-- A field whose place is filled, or which has a default, holds this value in the end. -/
theorem finish_cons_of_eq_some (slots : (Fields.cons field rest).Slots) {a : α}
    (h : (slots.uncons.1 <|> field.default) = some a) :
    (Fields.cons field rest).finish slots = (do return (a, ← rest.finish slots.uncons.2)) := by
  rw [finish_cons, h]

/-- Members under other names leave the first field alone. -/
theorem putAll_cons_of_ne {ctx : Context} {ms : List (String × Json)}
    (hne : ∀ m ∈ ms, m.1 ≠ field.name) (a : Option α) {slots slots' : rest.Slots}
    (h : rest.putAll ctx (memberNodes ms) slots = .ok slots') :
    (Fields.cons field rest).putAll ctx (memberNodes ms) (.cons a slots)
      = .ok (.cons a slots') := by
  induction ms generalizing slots with
  | nil =>
    cases h
    rfl
  | cons m ms ih =>
    obtain ⟨name, v⟩ := m
    have hname : name ≠ field.name := hne (name, v) List.mem_cons_self
    rw [putAll_memberNodes] at h
    obtain ⟨u, hnew, h⟩ := ok_of_bind h
    obtain ⟨between, hput, h⟩ := ok_of_bind h
    rw [putAll_memberNodes, checkNew_of_ne hname, hnew, put_of_ne ctx hname, hput]
    exact ih (fun m hm => hne m (List.mem_cons_of_mem _ hm)) h

end

/-- Members that stand for a record fill the places, and the record is what they are finished to. -/
theorem putAll_of_writes {depth : Nat} {τ : Type} {fs : Fields τ} {ms : List (String × Json)}
    {as : τ} (hnames : fs.names.Nodup) (h : fs.Writes depth ms as) {ctx : Context}
    (hroom : depth ≤ ctx.room) :
    ∃ slots, fs.putAll ctx (memberNodes ms) fs.empty = .ok slots ∧ fs.finish slots = .ok as := by
  induction h with
  | nil => exact ⟨_, rfl, rfl⟩
  | @given α τ field rest ms v a as hread hrest ih =>
    obtain ⟨hfirst, hnames⟩ := List.nodup_cons.1 hnames
    obtain ⟨slots, hput, hfinish⟩ := ih hnames
    have hlater := putAll_cons_of_ne (hrest.key_ne hfirst) (some a) hput
    have hnew := checkNew_self field rest.empty
    have hself := put_self (hread ctx hroom) rest.empty
    refine ⟨.cons (some a) slots, ?_, ?_⟩
    · rw [putAll_memberNodes]
      exact (congrArg (· >>= _) hnew).trans ((congrArg (· >>= _) hself).trans hlater)
    · rw [finish_cons_of_eq_some (.cons (some a) slots) rfl]
      exact congrArg (· >>= _) hfinish
  | @omitted α τ field rest ms a as hdefault hrest ih =>
    obtain ⟨hfirst, hnames⟩ := List.nodup_cons.1 hnames
    obtain ⟨slots, hput, hfinish⟩ := ih hnames
    have hlater := putAll_cons_of_ne (hrest.key_ne hfirst) none hput
    refine ⟨.cons none slots, hlater, ?_⟩
    rw [finish_cons_of_eq_some (.cons none slots) hdefault]
    exact congrArg (· >>= _) hfinish

/-- A record is read from the object of the members that stand for it. -/
theorem reads_decode {τ : Type} (fs : Fields τ) (record : String) {depth : Nat}
    {ms : List (String × Json)} {as : τ} (hnames : fs.names.Nodup) (h : fs.Writes depth ms as) :
    (fs.decode record).Reads (depth + 1) (.object ms) as := by
  intro ctx hroom
  obtain ⟨inside, henter, hinside⟩ := Context.enter_of_le hroom
  obtain ⟨slots, hput, hfinish⟩ := putAll_of_writes hnames h hinside
  have hdecode : fs.decode record ctx (.object (memberNodes ms) .closed)
      = (do fs.finish (← fs.putAll (← ctx.enter) (memberNodes ms) fs.empty)) := rfl
  rw [node, hdecode, henter]
  exact (congrArg (· >>= _) hput).trans hfinish

/-! ## What is read -/

/-- Every value of the record is one that the reader of its field finds, or the default. -/
def Yields : {τ : Type} → Fields τ → τ → Prop
  | _, .nil, _ => True
  | _, .cons field rest, as =>
    (field.default = some as.1 ∨ field.decode.Yields as.1) ∧ rest.Yields as.2

/-- Every place is empty or holds a value that the reader of its field finds. -/
def Filled : {τ : Type} → (fs : Fields τ) → fs.Slots → Prop
  | _, .nil, _ => True
  | _, .cons field rest, slots =>
    (∀ a, slots.uncons.1 = some a → field.decode.Yields a) ∧ rest.Filled slots.uncons.2

/-- Places that are empty hold nothing but what is found. -/
theorem filled_empty : {τ : Type} → (fs : Fields τ) → fs.Filled fs.empty
  | _, .nil => trivial
  | _, .cons _ rest => ⟨fun _ h => (nomatch h), rest.filled_empty⟩

/-- A member is put into a place as it is read. -/
theorem filled_of_put {ctx : Context} {name : String} {n : Node} {τ : Type} {fs : Fields τ}
    {slots slots' : fs.Slots} (hfilled : fs.Filled slots)
    (h : fs.put ctx name n slots = .ok slots') : fs.Filled slots' := by
  induction fs with
  | nil => trivial
  | cons field rest ih =>
    by_cases hname : name = field.name
    · have hput : (Fields.cons field rest).put ctx name n slots
          = (do return .cons (some (← field.decode ctx n)) slots.uncons.2) := if_pos hname
      rw [hput] at h
      obtain ⟨a, hread, h⟩ := ok_of_bind h
      cases h
      exact ⟨fun b hb => ⟨ctx, n, hread.trans (congrArg _ (Option.some.inj hb))⟩, hfilled.2⟩
    · have hput := put_of_ne ctx hname n slots.uncons.1 slots.uncons.2
      obtain ⟨others, hothers, h⟩ := ok_of_bind (hput.symm.trans h)
      cases h
      exact ⟨hfilled.1, ih hfilled.2 hothers⟩

/-- Members fill the places with what the readers of the fields find. -/
theorem filled_of_putAll {ctx : Context} {ms : List (StringLexeme × Node)} {τ : Type}
    {fs : Fields τ} {slots slots' : fs.Slots} (hfilled : fs.Filled slots)
    (h : fs.putAll ctx ms slots = .ok slots') : fs.Filled slots' := by
  induction ms generalizing slots with
  | nil =>
    cases h
    exact hfilled
  | cons m ms ih =>
    obtain ⟨name, -, h⟩ := ok_of_bind h
    obtain ⟨_, -, h⟩ := ok_of_bind h
    obtain ⟨between, hput, h⟩ := ok_of_bind h
    exact ih (filled_of_put hfilled hput) h

/-- What a record holds in the end is found by the readers of its fields or is a default. -/
theorem yields_of_finish {τ : Type} {fs : Fields τ} {slots : fs.Slots} {as : τ}
    (hfilled : fs.Filled slots) (h : fs.finish slots = .ok as) : fs.Yields as := by
  induction fs with
  | nil => trivial
  | cons field rest ih =>
    rw [finish_cons] at h
    split at h
    · next a hfirst =>
      obtain ⟨others, hothers, h⟩ := ok_of_bind h
      cases h
      refine ⟨?_, ih hfilled.2 hothers⟩
      cases hslot : slots.uncons.1 with
      | none => exact .inl (by rwa [hslot] at hfirst)
      | some b =>
        rw [hslot] at hfirst
        obtain rfl := Option.some.inj hfirst
        exact .inr (hfilled.1 b hslot)
    · cases h

/-- The fields that an array gives are read from its elements, the others have their defaults. -/
theorem yields_of_takeAll {record : String} {total : Nat} {ctx : Context} {ending : ArrayEnd}
    {τ : Type} {fs : Fields τ} {index : Nat} {items surplus : List Node} {as : τ}
    (h : takeAll record total ctx ending fs index items = .ok (as, surplus)) : fs.Yields as := by
  induction fs generalizing index items with
  | nil => trivial
  | cons field rest ih =>
    cases items with
    | nil =>
      obtain ⟨_, -, h⟩ := ok_of_bind h
      split at h
      · next a hdefault =>
        obtain ⟨⟨others, left⟩, hothers, h⟩ := ok_of_bind h
        cases h
        exact ⟨.inl hdefault, ih hothers⟩
      · cases h
    | cons v items =>
      obtain ⟨a, hread, h⟩ := ok_of_bind h
      obtain ⟨⟨others, left⟩, hothers, h⟩ := ok_of_bind h
      cases h
      exact ⟨.inr ⟨ctx, v, hread⟩, ih hothers⟩

/-- However a record is read, from an object or from an array, its values come from the readers of
the fields or are their defaults. -/
theorem yields_of_decode {τ : Type} (fs : Fields τ) {record : String} {as : τ}
    (h : (fs.decode record).Yields as) : fs.Yields as := by
  obtain ⟨ctx, n, h⟩ := h
  unfold decode at h
  split at h
  · obtain ⟨inside, -, h⟩ := ok_of_bind h
    obtain ⟨slots, hput, h⟩ := ok_of_bind h
    obtain ⟨_, -, h⟩ := ok_of_bind h
    exact yields_of_finish (filled_of_putAll fs.filled_empty hput) h
  · obtain ⟨inside, -, h⟩ := ok_of_bind h
    obtain ⟨⟨values, surplus⟩, htake, h⟩ := ok_of_bind h
    obtain ⟨_, -, h⟩ := ok_of_bind h
    cases h
    exact yields_of_takeAll htake
  · exact absurd h Node.mismatch_ne_ok

end Fields

/-- A field that must be given has what its reader finds. -/
theorem Field.yields_of_required {α : Type} {name : String} {d : Decoder α} {a : α}
    (h : (required name d).default = some a ∨ (required name d).decode.Yields a) : d.Yields a :=
  h.resolve_left fun hdefault => Option.some_ne_none a hdefault.symm

end MovieCatalog.Json
