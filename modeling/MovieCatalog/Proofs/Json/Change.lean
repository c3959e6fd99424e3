import Mathlib.Logic.Relation
import MovieCatalog.Proofs.Json.Members

/-!
# Changes that readers do not notice

The members of an object that is read as a record may stand in another order, there may be more of
them under names that no field has, and a member that is `null` may be missing if its field has the
same default (`MembersChange`). A reader of a record reads the same from the object that was changed
in this way (`Decoder.ignores_record`), also if the change is inside a member of which the reader does
not notice it; so such changes may be made at any depth, in any element of an array
(`Decoder.ignores_list`), and one after the other (`Decoder.Ignores.reflTransGen`).
-/

namespace MovieCatalog.Json

/-! ## Values that are passed over -/

/-- A value that follows the grammar, at any depth. What its strings and numbers mean does not
count. -/
inductive Node.WellFormed : Node → Prop
  | null : WellFormed .null
  | boolean (b : Bool) : WellFormed (.boolean b)
  | whole (negative : Bool) (digits : List Char) : WellFormed (.number (.whole negative digits))
  | scaled (l : Decimal.Literal) : WellFormed (.number (.scaled l))
  | string {l : StringLexeme} (h : l.ending = .closed) : WellFormed (.string l)
  | array {items : List Node} (h : ∀ n ∈ items, WellFormed n) : WellFormed (.array items .closed)
  | object {members : List (StringLexeme × Node)} (hkeys : ∀ m ∈ members, m.1.ending = .closed)
      (h : ∀ m ∈ members, WellFormed m.2) : WellFormed (.object members .closed)

/-- A string that ends in its quotation mark is skipped. -/
theorem StringLexeme.skip_of_closed {l : StringLexeme} (h : l.ending = .closed) :
    l.skip = .ok () := by
  rw [skip, h]
  rfl

namespace Node

theorem skipItems_eq_ok {items : List Node} (h : ∀ n ∈ items, n.skip = .ok ()) :
    skipItems items = .ok () := by
  induction items with
  | nil => rfl
  | cons n rest ih =>
    obtain ⟨hn, hrest⟩ := List.forall_mem_cons.1 h
    rw [skipItems, hn]
    exact ih hrest

theorem skipMembers_eq_ok {members : List (StringLexeme × Node)}
    (hkeys : ∀ m ∈ members, m.1.skip = .ok ()) (h : ∀ m ∈ members, m.2.skip = .ok ()) :
    skipMembers members = .ok () := by
  induction members with
  | nil => rfl
  | cons m rest ih =>
    obtain ⟨hkey, hkeys⟩ := List.forall_mem_cons.1 hkeys
    obtain ⟨hm, hrest⟩ := List.forall_mem_cons.1 h
    rw [skipMembers, hkey]
    exact (bind_of_ok hm _).trans (ih hkeys hrest)

/-- A value that follows the grammar is passed over, however deep it is. -/
theorem WellFormed.skip {n : Node} (h : n.WellFormed) : n.skip = .ok () := by
  induction h with
  | null | boolean | whole | scaled => rfl
  | string h => exact StringLexeme.skip_of_closed h
  | array _ ih =>
    rw [Node.skip, skipItems_eq_ok ih]
    rfl
  | object hkeys _ ih =>
    rw [Node.skip, skipMembers_eq_ok (fun m hm => StringLexeme.skip_of_closed (hkeys m hm)) ih]
    rfl

end Node

mutual

/-- What is written for a value follows the grammar. -/
theorem wellFormed_node : ∀ v : Json, v.node.WellFormed
  | .null => .null
  | .boolean b => .boolean b
  | .number n => by
    rw [node, NumberLexeme.ofLiteral]
    split
    · exact .whole _ _
    · exact .scaled _
  | .string _ => .string rfl
  | .array items => .array (wellFormed_itemNodes items)
  | .object members =>
    .object (fun _ hm => (wellFormed_memberNodes members _ hm).1) fun _ hm =>
      (wellFormed_memberNodes members _ hm).2

/-- What values are written as can be skipped, item by item. -/
theorem wellFormed_itemNodes : ∀ (items : List Json), ∀ n ∈ itemNodes items, n.WellFormed
  | [] => fun _ hn => nomatch hn
  | v :: rest => List.forall_mem_cons.2 ⟨wellFormed_node v, wellFormed_itemNodes rest⟩

/-- What members are written as can be skipped, keys included. -/
theorem wellFormed_memberNodes : ∀ (members : List (String × Json)),
    ∀ m ∈ memberNodes members, m.1.ending = .closed ∧ m.2.WellFormed
  | [] => fun _ hm => nomatch hm
  | (_, v) :: rest =>
    List.forall_mem_cons.2 ⟨⟨rfl, wellFormed_node v⟩, wellFormed_memberNodes rest⟩

end

/-! ## Changes -/

section
variable (declared optional : List String) (inner : String → Node → Node → Prop)

/-- A change of the members of an object for a record with declared names: they are put into another
order, one under a name that is not declared is put in anywhere, one that is `null` and optional is
taken out, or one is changed inside. -/
inductive MembersChange : List (StringLexeme × Node) → List (StringLexeme × Node) → Prop
  | permute {ms ms' : List (StringLexeme × Node)} (h : ms.Perm ms') : MembersChange ms ms'
  | insert (front : List (StringLexeme × Node)) {back : List (StringLexeme × Node)}
      {k : StringLexeme} {name : String} {v : Node} (hkey : k.read = .ok name)
      (hname : name ∉ declared) (hv : v.WellFormed) :
      MembersChange (front ++ back) (front ++ (k, v) :: back)
  | remove (front : List (StringLexeme × Node)) {back : List (StringLexeme × Node)}
      {k : StringLexeme} {name : String} (hkey : k.read = .ok name) (hname : name ∈ optional) :
      MembersChange (front ++ (k, .null) :: back) (front ++ back)
  | inside (front : List (StringLexeme × Node)) {back : List (StringLexeme × Node)}
      {k : StringLexeme} {name : String} {v v' : Node} (hkey : k.read = .ok name)
      (h : inner name v v') : MembersChange (front ++ (k, v) :: back) (front ++ (k, v') :: back)

/-- A change of an object for a record with declared names. -/
inductive Node.Change : Node → Node → Prop
  | object {ms ms' : List (StringLexeme × Node)} {ending : ObjectEnd}
      (h : MembersChange declared optional inner ms ms') :
      Change (.object ms ending) (.object ms' ending)

end

/-- A change of one element of an array. -/
inductive Node.ItemChange (change : Node → Node → Prop) : Node → Node → Prop
  | item (front : List Node) {back : List Node} {n n' : Node} {ending : ArrayEnd}
      (h : change n n') :
      ItemChange change (.array (front ++ n :: back) ending) (.array (front ++ n' :: back) ending)

/-- No change. -/
def NoChange (_ : String) (_ _ : Node) : Prop := False

/-- The decoder reads the same value after a change. -/
def Decoder.Ignores {α : Type} (d : Decoder α) (change : Node → Node → Prop) : Prop :=
  ∀ ⦃ctx : Context⦄ ⦃n n' : Node⦄ ⦃a : α⦄, change n n' → d ctx n = .ok a → d ctx n' = .ok a

/-! ## A member among others -/

section
variable {name : String} {front back : List (StringLexeme × Node)} {m : StringLexeme × Node}

theorem named_middle_of_eq (h : m.1.read = .ok name) :
    named name (front ++ m :: back) = named name front ++ m.2 :: named name back := by
  rw [named_append, named_cons_of_eq h]

theorem named_middle_of_ne (h : m.1.read ≠ .ok name) :
    named name (front ++ m :: back) = named name (front ++ back) := by
  rw [named_append, named_cons_of_ne h, named_append]

theorem without_middle_of_eq (h : m.1.read = .ok name) :
    without name (front ++ m :: back) = without name (front ++ back) := by
  rw [without_append, without_cons_of_eq h, without_append]

theorem without_middle_of_ne (h : m.1.read ≠ .ok name) :
    without name (front ++ m :: back) = without name front ++ m :: without name back := by
  rw [without_append, without_cons_of_ne h]

/-- If only one member is under a name, all others are not. -/
theorem named_eq_of_middle (h : m.1.read = .ok name) {v : Node}
    (hv : named name (front ++ m :: back) = [v]) : m.2 = v ∧ named name (front ++ back) = [] := by
  rw [named_middle_of_eq h] at hv
  rw [named_append]
  cases hfront : named name front with
  | nil =>
    rw [hfront] at hv
    obtain ⟨rfl, hback⟩ := List.cons.inj hv
    exact ⟨rfl, hback⟩
  | cons w ws =>
    rw [hfront] at hv
    obtain ⟨-, h⟩ := List.cons.inj hv
    exact absurd h (List.append_ne_nil_of_right_ne_nil _ (List.cons_ne_nil _ _))

end

/-! ## Records -/

namespace Fields

/-- Every optional field reads `null` as its default only, and every reader of a field ignores the
changes inside a member under its name. -/
def Allows (optional : List String) (inner : String → Node → Node → Prop) :
    {τ : Type} → Fields τ → Prop
  | _, .nil => True
  | _, .cons field rest =>
    (field.name ∈ optional →
      ∃ a, field.default = some a ∧ ∀ ctx b, field.decode ctx .null = .ok b → a = b) ∧
    field.decode.Ignores (inner field.name) ∧ rest.Allows optional inner

/-- A field that may be left out or `null` may be missing instead of `null`. -/
theorem allows_cons_nullable {α τ : Type} {name : String} {d : Decoder α} {rest : Fields τ}
    {optional : List String} {inner : String → Node → Node → Prop}
    (hignores : (Decoder.nullable d).Ignores (inner name)) (h : rest.Allows optional inner) :
    (Fields.cons (.withDefault name (.nullable d) none) rest).Allows optional inner :=
  ⟨fun _ => ⟨none, rfl, fun _ _ hnull => Except.ok.inj hnull⟩, hignores, h⟩

/-- A field that is not optional may have any reader that ignores the changes inside. -/
theorem allows_cons {α τ : Type} {field : Field α} {rest : Fields τ} {optional : List String}
    {inner : String → Node → Node → Prop} (hname : field.name ∉ optional)
    (hignores : field.decode.Ignores (inner field.name)) (h : rest.Allows optional inner) :
    (Fields.cons field rest).Allows optional inner :=
  ⟨fun hmem => absurd hmem hname, hignores, h⟩

section
variable {ctx : Context} {τ : Type} {fs : Fields τ} {front back : List (StringLexeme × Node)}
  {k : StringLexeme} {name : String} {v : Node} {as : τ}

/-- A record is made of its members in any order. -/
theorem Made.perm {ms ms' : List (StringLexeme × Node)} (hperm : ms.Perm ms')
    (h : fs.Made ctx ms as) : fs.Made ctx ms' as := by
  induction fs generalizing ms ms' with
  | nil => exact fun m hm => h m (hperm.mem_iff.2 hm)
  | cons field rest ih =>
    have hnamed : (named field.name ms).Perm (named field.name ms') := hperm.filterMap _
    refine ⟨?_, ih (hperm.filter _) h.2⟩
    obtain ⟨hnone, hdefault⟩ | ⟨v, hv, hdecode⟩ := h.1
    · rw [hnone] at hnamed
      exact .inl ⟨hnamed.nil_eq.symm, hdefault⟩
    · rw [hv] at hnamed
      exact .inr ⟨v, hnamed.singleton_eq.symm, hdecode⟩

/-- A member under a name that no field has is passed over. -/
theorem Made.insert (hkey : k.read = .ok name) (hname : name ∉ fs.names) (hv : v.WellFormed)
    (h : fs.Made ctx (front ++ back) as) : fs.Made ctx (front ++ (k, v) :: back) as := by
  induction fs generalizing front back with
  | nil =>
    intro m hm
    rcases List.mem_append.1 hm with hm | hm
    · exact h m (List.mem_append_left _ hm)
    · rcases List.mem_cons.1 hm with rfl | hm
      · exact ⟨⟨name, hkey⟩, hv.skip⟩
      · exact h m (List.mem_append_right _ hm)
  | cons field rest ih =>
    obtain ⟨hfirst, hrest⟩ := not_or.1 (mt List.mem_cons.2 hname)
    have hne : k.read ≠ .ok field.name := fun heq =>
      hfirst (Except.ok.inj (hkey.symm.trans heq))
    obtain ⟨hself, hothers⟩ := h
    rw [without_append] at hothers
    refine ⟨?_, ?_⟩
    · rwa [named_middle_of_ne hne]
    · rw [without_middle_of_ne hne]
      exact ih hrest hothers

/-- A member that is `null` may be missing if its field has a default. -/
theorem Made.remove {optional : List String} {inner : String → Node → Node → Prop}
    (hallows : fs.Allows optional inner) (hkey : k.read = .ok name) (hname : name ∈ optional)
    (h : fs.Made ctx (front ++ (k, .null) :: back) as) : fs.Made ctx (front ++ back) as := by
  induction fs generalizing front back with
  | nil =>
    intro m hm
    exact h m (((List.sublist_cons_self _ _).append_left front).subset hm)
  | cons field rest ih =>
    obtain ⟨hnull, -, hallows⟩ := hallows
    obtain ⟨hself, hothers⟩ := h
    by_cases heq : k.read = .ok field.name
    · rw [without_middle_of_eq heq] at hothers
      refine ⟨.inl ?_, hothers⟩
      obtain ⟨hnone, -⟩ | ⟨v, hv, hdecode⟩ := hself
      · rw [named_middle_of_eq heq] at hnone
        exact absurd hnone (List.append_ne_nil_of_right_ne_nil _ (List.cons_ne_nil _ _))
      · obtain ⟨rfl, hnone⟩ := named_eq_of_middle heq hv
        obtain rfl := Except.ok.inj (hkey.symm.trans heq)
        obtain ⟨a, hdefault, hunique⟩ := hnull hname
        exact ⟨hnone, hdefault.trans (congrArg some (hunique ctx _ hdecode))⟩
    · rw [without_middle_of_ne heq] at hothers
      rw [named_middle_of_ne heq] at hself
      refine ⟨hself, ?_⟩
      rw [without_append]
      exact ih hallows hothers

/-- A member may be changed inside if the reader of its field ignores the change. -/
theorem Made.inside {optional : List String} {inner : String → Node → Node → Prop} {v' : Node}
    (hallows : fs.Allows optional inner) (hkey : k.read = .ok name) (hname : name ∈ fs.names)
    (hchange : inner name v v') (h : fs.Made ctx (front ++ (k, v) :: back) as) :
    fs.Made ctx (front ++ (k, v') :: back) as := by
  induction fs generalizing front back with
  | nil => cases hname
  | cons field rest ih =>
    obtain ⟨-, hignores, hallows⟩ := hallows
    obtain ⟨hself, hothers⟩ := h
    by_cases heq : k.read = .ok field.name
    · rw [without_middle_of_eq heq] at hothers
      refine ⟨.inr ?_, by rwa [without_middle_of_eq heq]⟩
      obtain ⟨hnone, -⟩ | ⟨w, hw, hdecode⟩ := hself
      · rw [named_middle_of_eq heq] at hnone
        exact absurd hnone (List.append_ne_nil_of_right_ne_nil _ (List.cons_ne_nil _ _))
      · obtain ⟨rfl, hnone⟩ := named_eq_of_middle heq hw
        obtain rfl := Except.ok.inj (hkey.symm.trans heq)
        obtain ⟨hfront, hback⟩ := List.append_eq_nil_iff.1 ((named_append ..).symm.trans hnone)
        refine ⟨v', ?_, hignores hchange hdecode⟩
        rw [named_middle_of_eq heq, hfront, hback]
        rfl
    · rw [without_middle_of_ne heq] at hothers
      rw [named_middle_of_ne heq] at hself
      have hmem : name ∈ rest.names := by
        rcases List.mem_cons.1 hname with rfl | hmem
        · exact absurd hkey heq
        · exact hmem
      refine ⟨by rwa [named_middle_of_ne heq], ?_⟩
      rw [without_middle_of_ne heq]
      exact ih hallows hmem hothers

end

/-- A record is made of the members also after a change. -/
theorem Made.change {ctx : Context} {optional : List String} {inner : String → Node → Node → Prop}
    {τ : Type} {fs : Fields τ} (hallows : fs.Allows optional inner)
    (hinner : ∀ {name v v'}, inner name v v' → name ∈ fs.names)
    {ms ms' : List (StringLexeme × Node)} {as : τ}
    (hchange : MembersChange fs.names optional inner ms ms') (h : fs.Made ctx ms as) :
    fs.Made ctx ms' as := by
  cases hchange with
  | permute hperm => exact h.perm hperm
  | insert _ hkey hname hv => exact h.insert hkey hname hv
  | remove _ hkey hname => exact h.remove hallows hkey hname
  | inside _ hkey hchange => exact h.inside hallows hkey (hinner hchange) hchange

end Fields

namespace Decoder

/-- A change that does not affect what is read does not affect what is made of it either. -/
theorem Ignores.bind {α β : Type} {d : Decoder α} {change : Node → Node → Prop}
    (h : d.Ignores change) (k : α → Except Fault β) :
    Decoder.Ignores (fun ctx n => d ctx n >>= k) change := by
  intro ctx n n' b hchange hread
  obtain ⟨a, hread, hk⟩ := ok_of_bind hread
  exact (bind_of_ok (h hchange hread) k).trans hk

/-- What is ignored once is ignored any number of times. -/
theorem Ignores.reflTransGen {α : Type} {d : Decoder α} {change : Node → Node → Prop}
    (h : d.Ignores change) : d.Ignores (Relation.ReflTransGen change) := by
  intro ctx n n' a hchanges hread
  induction hchanges with
  | refl => exact hread
  | tail _ hchange ih => exact h hchange ih

/-- Where nothing may change, any reader ignores the changes. -/
theorem ignores_noChange {α : Type} (d : Decoder α) (name : String) :
    d.Ignores (NoChange name) :=
  fun _ _ _ _ h => h.elim

/-- A reader of a record ignores changes of the object. -/
theorem ignores_record {τ : Type} (fs : Fields τ) (record : String) {optional : List String}
    {inner : String → Node → Node → Prop} (hallows : fs.Allows optional inner)
    (hinner : ∀ {name v v'}, inner name v v' → name ∈ fs.names) :
    (fs.decode record).Ignores (Node.Change fs.names optional inner) := by
  intro ctx n n' as hchange hread
  cases hchange with
  | object hchange =>
    obtain ⟨inside, henter, hend, hmade⟩ := Fields.decode_object_eq_ok_iff.1 hread
    exact Fields.decode_object_eq_ok_iff.2
      ⟨inside, henter, hend, hmade.change hallows hinner hchange⟩

/-- One item in the place of another that is read alike does not change what the items are read as.
-/
theorem elements_middle {α : Type} {d : Decoder α} {ctx : Context} {n n' : Node}
    (h : ∀ a, d ctx n = .ok a → d ctx n' = .ok a) {front back : List Node} {as : List α}
    (hread : elements d ctx (front ++ n :: back) = .ok as) :
    elements d ctx (front ++ n' :: back) = .ok as := by
  induction front generalizing as with
  | nil =>
    obtain ⟨a, ha, hread⟩ := ok_of_bind hread
    exact (bind_of_ok (h a ha) _).trans hread
  | cons m front ih =>
    obtain ⟨a, ha, hread⟩ := ok_of_bind hread
    obtain ⟨bs, hbs, hread⟩ := ok_of_bind hread
    exact (bind_of_ok ha _).trans ((bind_of_ok (ih hbs) _).trans hread)

/-- A reader of an array ignores the changes of an element that the reader of elements ignores. -/
theorem ignores_list {α : Type} {d : Decoder α} {change : Node → Node → Prop}
    (h : d.Ignores change) : (list d).Ignores (Node.ItemChange change) := by
  intro ctx n n' as hchange hread
  cases hchange with
  | item _ hchange =>
    obtain ⟨inside, henter, hread⟩ := ok_of_bind hread
    obtain ⟨bs, helements, hread⟩ := ok_of_bind hread
    have hnew := elements_middle (fun a => h hchange) helements
    exact (bind_of_ok henter _).trans ((bind_of_ok hnew _).trans hread)

end Decoder

end MovieCatalog.Json
