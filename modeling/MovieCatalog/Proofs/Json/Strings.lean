import MovieCatalog.Proofs.Json.Sorted

/-!
# The strings in a text

A string in a JSON text is a value or the key of a member. Both are listed here in the order in
which they stand in the text (`Node.strings`, `Node.keys`), for the tree of a text that may be
broken anywhere. In the tree of a value they are the strings of the value, as they are
(`strings_array`, `strings_object`), and its keys, which are bounded together with its levels
(`Framed`).
-/

namespace MovieCatalog.Json

namespace Node

mutual

/-- The strings that are values in a tree. -/
def strings : Node → List StringLexeme
  | .string l => [l]
  | .array items _ => itemStrings items
  | .object members _ => memberStrings members
  | .null | .boolean _ | .number _ | .missing | .alien | .misspelt _ => []

/-- The strings that are values in the elements of an array. -/
def itemStrings : List Node → List StringLexeme
  | [] => []
  | v :: rest => v.strings ++ itemStrings rest

/-- The strings that are values in the members of an object. -/
def memberStrings : List (StringLexeme × Node) → List StringLexeme
  | [] => []
  | (_, v) :: rest => v.strings ++ memberStrings rest

end

mutual

/-- The keys of all objects in a tree. -/
def keys : Node → List StringLexeme
  | .array items _ => itemKeys items
  | .object members _ => memberKeys members
  | .null | .boolean _ | .number _ | .string _ | .missing | .alien | .misspelt _ => []

/-- The keys in the elements of an array. -/
def itemKeys : List Node → List StringLexeme
  | [] => []
  | v :: rest => v.keys ++ itemKeys rest

/-- The keys of an object and those in its members. -/
def memberKeys : List (StringLexeme × Node) → List StringLexeme
  | [] => []
  | (k, v) :: rest => k :: v.keys ++ memberKeys rest

end

end Node

/-! ## Strings -/

@[simp] theorem strings_string (s : String) : (node (.string s)).strings = [.ofString s] :=
  rfl

@[simp] theorem strings_number (n : Number) : (node (.number n)).strings = [] :=
  rfl

@[simp] theorem strings_ofBinary64 (x : Binary64) : (ofBinary64 x).node.strings = [] := by
  unfold ofBinary64
  split <;> rfl

/-- The free texts of an array are those of its items. -/
@[simp] theorem strings_array (items : List Json) :
    (node (.array items)).strings = items.flatMap fun v => v.node.strings := by
  rw [node, Node.strings]
  induction items with
  | nil => rfl
  | cons v rest ih => rw [itemNodes, Node.itemStrings, ih, List.flatMap_cons]

@[simp] theorem strings_ofStrings (texts : List String) :
    (ofStrings texts).node.strings = texts.map .ofString := by
  rw [ofStrings, strings_array, List.flatMap_map, List.map_eq_flatMap]
  rfl

/-- The free texts of an object are those of the values of its members; keys do not count. -/
@[simp] theorem strings_object (members : List (String × Json)) :
    (node (.object members)).strings = members.flatMap fun m => m.2.node.strings := by
  rw [node, Node.strings]
  induction members with
  | nil => rfl
  | cons m rest ih => rw [memberNodes, Node.memberStrings, ih, List.flatMap_cons]

/-- Strings as they are written mean themselves. -/
theorem map_read_ofString (texts : List String) :
    (texts.map StringLexeme.ofString).map (·.read) = texts.map .ok := by
  rw [List.map_map]
  exact List.map_congr_left fun s _ => StringLexeme.read_ofString s

/-! ## Keys -/

/-- A value has at most `depth` levels, and all its keys are among given names. -/
structure Framed (names : List String) (depth : Nat) (v : Json) : Prop where
  depth_le : v.depth ≤ depth
  keys_mem : ∀ k ∈ v.node.keys, ∃ name ∈ names, k = .ofString name

section
variable {names : List String} {depth : Nat}

theorem framed_string (s : String) : Framed names depth (.string s) :=
  ⟨Nat.zero_le depth, fun _ h => nomatch h⟩

theorem framed_number (n : Number) : Framed names depth (.number n) :=
  ⟨Nat.zero_le depth, fun _ h => nomatch h⟩

theorem framed_ofBinary64 (x : Binary64) : Framed names depth (ofBinary64 x) := by
  unfold ofBinary64
  split
  · exact framed_number _
  · exact ⟨Nat.zero_le depth, fun _ h => nomatch h⟩

/-- An array of framed values is framed, one level deeper. -/
theorem framed_array {items : List Json} (h : ∀ v ∈ items, Framed names depth v) :
    Framed names (depth + 1) (.array items) := by
  refine ⟨depth_array_le_iff.2 fun v hv => (h v hv).depth_le, ?_⟩
  rw [node, Node.keys]
  induction items with
  | nil => exact fun _ h => nomatch h
  | cons v rest ih =>
    obtain ⟨hv, hrest⟩ := List.forall_mem_cons.1 h
    rw [itemNodes, Node.itemKeys]
    exact List.forall_mem_append.2 ⟨hv.keys_mem, ih hrest⟩

/-- There are no keys in an array of strings. -/
theorem framed_ofStrings (texts : List String) : Framed names (depth + 1) (ofStrings texts) :=
  framed_array (List.forall_mem_map.2 fun s _ => framed_string s)

/-- An object with known keys and framed values is framed, one level deeper. -/
theorem framed_object {members : List (String × Json)}
    (h : ∀ m ∈ members, m.1 ∈ names ∧ Framed names depth m.2) :
    Framed names (depth + 1) (.object members) := by
  refine ⟨depth_object_le_iff.2 fun m hm => (h m hm).2.depth_le, ?_⟩
  rw [node, Node.keys]
  induction members with
  | nil => exact fun _ h => nomatch h
  | cons m rest ih =>
    obtain ⟨⟨hkey, hv⟩, hrest⟩ := List.forall_mem_cons.1 h
    rw [memberNodes, Node.memberKeys, List.cons_append]
    refine List.forall_mem_cons.2 ⟨⟨m.1, hkey, rfl⟩, ?_⟩
    exact List.forall_mem_append.2 ⟨hv.keys_mem, ih hrest⟩

theorem framed_singleton {key : String} {v : Json} (hkey : key ∈ names)
    (hv : Framed names depth v) : Framed names (depth + 1) (.object [(key, v)]) :=
  framed_object (List.forall_mem_singleton.2 ⟨hkey, hv⟩)

end

end MovieCatalog.Json
