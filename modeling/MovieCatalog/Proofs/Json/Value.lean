import MovieCatalog.Proofs.Json.Quoted
import MovieCatalog.Proofs.Json.Scan

/-!
# Values read back

The text of a value is spelt as the tree of the value (`spells_chars`), in which every string and
every number stands as it is written, so the text as a whole is read as this tree with nothing
behind it (`Document.read_text`).
-/

namespace MovieCatalog.Json

mutual

/-- The tree of a value's text. -/
def node : Json → Node
  | .null => .null
  | .boolean b => .boolean b
  | .number n => .number (.ofLiteral n.literal)
  | .string s => .string (.ofString s)
  | .array items => .array (itemNodes items) .closed
  | .object members => .object (memberNodes members) .closed

/-- The trees of the elements of an array. -/
def itemNodes : List Json → List Node
  | [] => []
  | v :: rest => v.node :: itemNodes rest

/-- The keys and the trees of the members of an object. -/
def memberNodes : List (String × Json) → List (StringLexeme × Node)
  | [] => []
  | (k, v) :: rest => (.ofString k, v.node) :: memberNodes rest

end

/-- `itemNodes` element by element. -/
theorem itemNodes_eq_map (items : List Json) : itemNodes items = items.map node := by
  induction items with
  | nil => rfl
  | cons v rest ih => rw [itemNodes, ih, List.map_cons]

/-- `memberNodes` member by member. -/
theorem memberNodes_eq_map (members : List (String × Json)) :
    memberNodes members = members.map fun m => (.ofString m.1, m.2.node) := by
  induction members with
  | nil => rfl
  | cons m rest ih => rw [memberNodes, ih, List.map_cons]

/-- The value is `null`, or one inside it is. -/
inductive Node.HoldsNull : Node → Prop
  | null : HoldsNull .null
  | item {n : Node} {items : List Node} {ending : ArrayEnd} (hmem : n ∈ items)
      (h : HoldsNull n) : HoldsNull (.array items ending)
  | member {m : StringLexeme × Node} {members : List (StringLexeme × Node)} {ending : ObjectEnd}
      (hmem : m ∈ members) (h : HoldsNull m.2) : HoldsNull (.object members ending)

theorem not_holdsNull_string (s : String) : ¬ (node (.string s)).HoldsNull := by
  intro h
  cases h

theorem not_holdsNull_number (n : Number) : ¬ (node (.number n)).HoldsNull := by
  intro h
  cases h

theorem not_holdsNull_array {items : List Json} (h : ∀ v ∈ items, ¬ v.node.HoldsNull) :
    ¬ (node (.array items)).HoldsNull := by
  intro hnull
  rw [node, itemNodes_eq_map] at hnull
  cases hnull with
  | item hmem hn =>
    obtain ⟨v, hv, rfl⟩ := List.mem_map.1 hmem
    exact h v hv hn

/-- There is no null in an object if there is none in the values of its members. -/
theorem not_holdsNull_object {members : List (String × Json)}
    (h : ∀ m ∈ members, ¬ m.2.node.HoldsNull) : ¬ (node (.object members)).HoldsNull := by
  intro hnull
  rw [node, memberNodes_eq_map] at hnull
  cases hnull with
  | member hmem hn =>
    obtain ⟨m, hm, rfl⟩ := List.mem_map.1 hmem
    exact h m hm hn

theorem not_holdsNull_singleton {key : String} {v : Json} (h : ¬ v.node.HoldsNull) :
    ¬ (node (.object [(key, v)])).HoldsNull := by
  refine not_holdsNull_object fun m hm => ?_
  obtain rfl := List.mem_singleton.1 hm
  exact h

/-! ## Spelling -/

theorem commaSeparated_singleton (p : List Char) : commaSeparated [p] = p :=
  List.intercalate_singleton

theorem commaSeparated_cons_cons (p q : List Char) (ps : List (List Char)) :
    commaSeparated (p :: q :: ps) = p ++ ',' :: commaSeparated (q :: ps) := by
  simp [commaSeparated, List.intercalate_cons_cons]

theorem blanks_nil : Blanks [] := fun _ hc => nomatch hc

mutual

/-- The text of a value is spelt as its tree. -/
theorem spells_chars : ∀ v : Json, Spells v.chars v.node
  | .null => .null
  | .boolean true => .true
  | .boolean false => .false
  | .number n => by
    rw [chars, Number.text_eq]
    exact .number (spellsNumber_text n.literal_wellSpelt)
  | .string s => .string (spellsString_stringText s)
  | .array [] => .emptyArray blanks_nil
  | .array (v :: vs) => .array blanks_nil (spellsItems_itemTexts (v :: vs) (List.cons_ne_nil v vs))
  | .object [] => .emptyObject blanks_nil
  | .object (m :: ms) =>
    .object blanks_nil (spellsMembers_memberTexts (m :: ms) (List.cons_ne_nil m ms))

/-- The texts of elements are spelt as their trees. -/
theorem spellsItems_itemTexts : ∀ items : List Json, items ≠ [] →
    SpellsItems (commaSeparated (itemTexts items)) (itemNodes items)
  | [], h => absurd rfl h
  | [v], _ => by
    have hlast := SpellsItems.last (spells_chars v) blanks_nil
    rwa [List.append_nil, ← commaSeparated_singleton v.chars] at hlast
  | v :: w :: vs, _ => by
    have hrest := spellsItems_itemTexts (w :: vs) (List.cons_ne_nil w vs)
    have hmore := SpellsItems.more (spells_chars v) blanks_nil blanks_nil hrest
    rwa [List.nil_append, List.nil_append, itemTexts, ← commaSeparated_cons_cons] at hmore

/-- The texts of members are spelt as their keys and trees. -/
theorem spellsMembers_memberTexts : ∀ members : List (String × Json), members ≠ [] →
    SpellsMembers (commaSeparated (memberTexts members)) (memberNodes members)
  | [], h => absurd rfl h
  | [(k, v)], _ => by
    have hlast := SpellsMembers.last (spellsString_stringText k) blanks_nil blanks_nil
      (spells_chars v) blanks_nil
    rwa [List.append_nil, List.nil_append, List.nil_append,
      ← commaSeparated_singleton (stringText k ++ ':' :: v.chars)] at hlast
  | (k, v) :: (l, w) :: ms, _ => by
    have hrest := spellsMembers_memberTexts ((l, w) :: ms) (List.cons_ne_nil _ ms)
    have hmore := SpellsMembers.more (spellsString_stringText k) blanks_nil blanks_nil
      (spells_chars v) blanks_nil blanks_nil hrest
    have htext : commaSeparated (memberTexts ((k, v) :: (l, w) :: ms))
        = stringText k ++ ':' :: v.chars ++ ',' :: commaSeparated (memberTexts ((l, w) :: ms)) :=
      commaSeparated_cons_cons _ _ _
    simp only [List.nil_append] at hmore
    rw [htext, List.append_assoc, List.cons_append]
    exact hmore

end

/-- The text of a value is spelt as its tree, with no blanks around. -/
theorem spellsText_text (v : Json) : SpellsText v.text.toList v.node := by
  have hspells := SpellsText.between blanks_nil (spells_chars v) blanks_nil
  rw [List.append_nil] at hspells
  rwa [text, String.toList_ofList]

/-- The text of a value is read as the tree of the value, and nothing follows it. -/
theorem Document.read_text (v : Json) : Document.read (Text.pieces v.text) = ⟨v.node, false⟩ :=
  Document.read_of_spells (spellsText_text v)

end MovieCatalog.Json
