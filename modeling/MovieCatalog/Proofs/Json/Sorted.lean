import MovieCatalog.Proofs.Json.Decode

/-!
# Any value read back

A reader of any value leaves out nothing but the order of members: it reads the text of a legible
value as the value with its keys in ascending order (`Json.sorted`), as long as no more levels are
entered than there is room for (`Decoder.reads_json`). Whatever text such a reader reads, the keys
in the value it finds are in ascending order already (`Node.sorted_of_value`), so a legible value
that was read once is read back as it is (`Decoder.reads_json_of_value`).
-/

namespace MovieCatalog.Json

mutual

/-- The number of levels that are entered in reading a value. -/
def depth : Json → Nat
  | .null | .boolean _ | .number _ | .string _ => 0
  | .array items => itemDepth items + 1
  | .object members => memberDepth members + 1

/-- The number of levels in the deepest of several elements. -/
def itemDepth : List Json → Nat
  | [] => 0
  | v :: rest => max v.depth (itemDepth rest)

/-- The number of levels in the deepest of several members. -/
def memberDepth : List (String × Json) → Nat
  | [] => 0
  | (_, v) :: rest => max v.depth (memberDepth rest)

end

mutual

/-- The value with the members of each object in ascending order of their keys, the last one of each
key. -/
def sorted : Json → Json
  | .null => .null
  | .boolean b => .boolean b
  | .number n => .number n
  | .string s => .string s
  | .array items => .array (sortedItems items)
  | .object members => .object (sortMembers (sortedEntries members))

/-- `sorted` for the elements of an array. -/
def sortedItems : List Json → List Json
  | [] => []
  | v :: rest => v.sorted :: sortedItems rest

/-- `sorted` for the values of members, which stay in their places. -/
def sortedEntries : List (String × Json) → List (String × Json)
  | [] => []
  | (k, v) :: rest => (k, v.sorted) :: sortedEntries rest

end

/-! ## Order of members -/

section
variable {α : Type} {key k : String}

theorem insertMember_nil (key : String) (a : α) : insertMember key a [] = [(key, a)] :=
  rfl

/-- A member with a smaller key comes first. -/
theorem insertMember_of_lt (h : key < k) (a b : α) (rest : List (String × α)) :
    insertMember key a ((k, b) :: rest) = (key, a) :: (k, b) :: rest :=
  if_pos h

/-- A member with a greater key comes behind the first one. -/
theorem insertMember_of_gt (h : k < key) (a b : α) (rest : List (String × α)) :
    insertMember key a ((k, b) :: rest) = (k, b) :: insertMember key a rest := by
  have hne : key ≠ k := fun heq => String.lt_irrefl k (heq ▸ h)
  rw [insertMember, if_neg (String.lt_asymm h), if_neg hne]

end

/-! ## Levels -/

@[simp] theorem depth_string (s : String) : (Json.string s).depth = 0 :=
  rfl

@[simp] theorem depth_ofUInt64 (n : UInt64) : (ofUInt64 n).depth = 0 :=
  rfl

@[simp] theorem depth_ofInt64 (n : Int64) : (ofInt64 n).depth = 0 :=
  rfl

@[simp] theorem depth_ofBinary64 (x : Binary64) : (ofBinary64 x).depth = 0 := by
  unfold ofBinary64
  split <;> rfl

theorem itemDepth_le_iff {items : List Json} {n : Nat} :
    itemDepth items ≤ n ↔ ∀ v ∈ items, v.depth ≤ n := by
  induction items with
  | nil => simp [itemDepth]
  | cons v rest ih => simp [itemDepth, ih]

theorem memberDepth_le_iff {members : List (String × Json)} {n : Nat} :
    memberDepth members ≤ n ↔ ∀ m ∈ members, m.2.depth ≤ n := by
  induction members with
  | nil => simp [memberDepth]
  | cons m rest ih => simp [memberDepth, ih]

/-- An array is one level deeper than its items. -/
theorem depth_array_le_iff {items : List Json} {n : Nat} :
    (Json.array items).depth ≤ n + 1 ↔ ∀ v ∈ items, v.depth ≤ n := by
  rw [depth, Nat.add_le_add_iff_right, itemDepth_le_iff]

/-- An object is one level deeper than the values of its members. -/
theorem depth_object_le_iff {members : List (String × Json)} {n : Nat} :
    (Json.object members).depth ≤ n + 1 ↔ ∀ m ∈ members, m.2.depth ≤ n := by
  rw [depth, Nat.add_le_add_iff_right, memberDepth_le_iff]

theorem depth_ofStrings_le (texts : List String) : (ofStrings texts).depth ≤ 1 :=
  depth_array_le_iff.2 (List.forall_mem_map.2 fun _ _ => Nat.le_refl 0)

/-! ## Reading -/

mutual

/-- The tree of a legible value is read as the value with sorted keys, if there is room. -/
theorem value_node : ∀ (v : Json) {room : Nat}, v.Legible → v.depth ≤ room →
    v.node.value room = .ok v.sorted
  | .null, _, _, _ => rfl
  | .boolean _, _, _, _ => rfl
  | .number n, _, hn, _ => by
    have hread : (NumberLexeme.ofLiteral n.literal).read = .ok n := legible_number_iff.1 hn
    rw [node, Node.value, hread]
    rfl
  | .string s, _, _, _ => by
    rw [node, Node.value, StringLexeme.read_ofString]
    rfl
  | .array _, 0, _, h => absurd h (Nat.not_succ_le_zero _)
  | .array items, room + 1, hitems, h => by
    rw [node, Node.value, itemValues_itemNodes items (legible_array_iff.1 hitems)
      (Nat.le_of_succ_le_succ h)]
    rfl
  | .object _, 0, _, h => absurd h (Nat.not_succ_le_zero _)
  | .object members, room + 1, hmembers, h => by
    rw [node, Node.value, memberValues_memberNodes members (legible_object_iff.1 hmembers)
      (Nat.le_of_succ_le_succ h)]
    rfl

/-- The trees of legible elements are read as the elements with sorted keys. -/
theorem itemValues_itemNodes : ∀ (items : List Json) {room : Nat}, (∀ v ∈ items, v.Legible) →
    itemDepth items ≤ room → Node.itemValues room (itemNodes items) = .ok (sortedItems items)
  | [], _, _, _ => rfl
  | v :: rest, _, hitems, h => by
    obtain ⟨hfirst, hothers⟩ := List.forall_mem_cons.1 hitems
    obtain ⟨hv, hrest⟩ := Nat.max_le.1 h
    rw [itemNodes, Node.itemValues, value_node v hfirst hv, itemValues_itemNodes rest hothers hrest]
    rfl

/-- The trees of legible members are read as the members in their places, with sorted keys inside.
-/
theorem memberValues_memberNodes : ∀ (members : List (String × Json)) {room : Nat},
    (∀ m ∈ members, m.2.Legible) → memberDepth members ≤ room →
    Node.memberValues room (memberNodes members) = .ok (sortedEntries members)
  | [], _, _, _ => rfl
  | (k, v) :: rest, _, hmembers, h => by
    obtain ⟨hfirst, hothers⟩ := List.forall_mem_cons.1 hmembers
    obtain ⟨hv, hrest⟩ := Nat.max_le.1 h
    rw [memberNodes, Node.memberValues, StringLexeme.read_ofString, value_node v hfirst hv,
      memberValues_memberNodes rest hothers hrest]
    rfl

end

/-- Any legible value is read back, up to the order of members. -/
theorem Decoder.reads_json {v : Json} (h : v.Legible) : Decoder.json.Reads v.depth v v.sorted :=
  fun _ hroom => value_node v h hroom

/-! ## Values that have been read -/

/-- The keys are in strictly ascending order. -/
def Ascending {α : Type} (members : List (String × α)) : Prop :=
  members.Pairwise fun m n => m.1 < n.1

section
variable {α : Type} {members : List (String × α)}

/-- Keys that ascend still ascend after an insertion. -/
theorem ascending_insertMember (h : Ascending members) (key : String) (a : α) :
    Ascending (insertMember key a members) := by
  induction members with
  | nil => exact List.pairwise_singleton _ _
  | cons m rest ih =>
    obtain ⟨hfirst, hrest⟩ := List.pairwise_cons.1 h
    rw [insertMember]
    split
    · next hlt =>
      refine List.pairwise_cons.2 ⟨fun n hn => ?_, h⟩
      rcases List.mem_cons.1 hn with rfl | hn
      · exact hlt
      · exact String.lt_trans hlt (hfirst n hn)
    · next hge =>
      split
      · next heq => exact List.pairwise_cons.2 ⟨fun n hn => heq ▸ hfirst n hn, hrest⟩
      · next hne =>
        have hgt : m.1 < key :=
          String.not_le.1 fun hle => hne (String.le_antisymm hle (String.not_lt.1 hge))
        refine List.pairwise_cons.2 ⟨fun n hn => ?_, ih hrest⟩
        rcases Decoder.mem_of_mem_insertMember hn with rfl | hn
        · exact hgt
        · exact hfirst n hn

/-- Members are sorted into ascending order. -/
theorem ascending_sortMembers (members : List (String × α)) : Ascending (sortMembers members) := by
  have hfold : ∀ sorted : List (String × α), Ascending sorted →
      Ascending (members.foldl (fun sorted m => insertMember m.1 m.2 sorted) sorted) := by
    induction members with
    | nil => exact fun _ h => h
    | cons m rest ih => exact fun _ h => ih _ (ascending_insertMember h m.1 m.2)
  exact hfold [] .nil

/-- A member with the greatest key comes last. -/
theorem insertMember_eq_append {key : String} (h : ∀ m ∈ members, m.1 < key) (a : α) :
    insertMember key a members = members ++ [(key, a)] := by
  induction members with
  | nil => rfl
  | cons m rest ih =>
    obtain ⟨hm, hrest⟩ := List.forall_mem_cons.1 h
    rw [insertMember_of_gt hm, ih hrest]
    rfl

/-- Ascending members are sorted. -/
theorem Ascending.sortMembers_eq (h : Ascending members) : sortMembers members = members := by
  have hfold : ∀ sorted : List (String × α), Ascending (sorted ++ members) →
      members.foldl (fun sorted m => insertMember m.1 m.2 sorted) sorted = sorted ++ members := by
    clear h
    induction members with
    | nil => exact fun sorted _ => (List.append_nil sorted).symm
    | cons m rest ih =>
      intro sorted hsorted
      have hlast : ∀ n ∈ sorted, n.1 < m.1 :=
        fun n hn => (List.pairwise_append.1 hsorted).2.2 n hn m List.mem_cons_self
      rw [List.append_cons] at hsorted ⊢
      rw [List.foldl_cons, insertMember_eq_append hlast, ih _ hsorted]
  exact hfold [] h

end

/-- Values with sorted keys stay as they are. -/
theorem sortedEntries_eq_self {members : List (String × Json)}
    (h : ∀ m ∈ members, m.2.sorted = m.2) : sortedEntries members = members := by
  induction members with
  | nil => rfl
  | cons m rest ih =>
    obtain ⟨hm, hrest⟩ := List.forall_mem_cons.1 h
    rw [sortedEntries, hm, ih hrest]

namespace Node

mutual

/-- A value that is read from a tree has sorted keys. -/
theorem sorted_of_value : ∀ (n : Node) {room : Nat} {v : Json}, n.value room = .ok v → v.sorted = v
  | .null, _, _, h | .boolean _, _, _, h => by
    cases h
    rfl
  | .number _, _, _, h | .string _, _, _, h => by
    obtain ⟨_, -, h⟩ := ok_of_bind h
    cases h
    rfl
  | .array _ _, 0, _, h | .object _ _, 0, _, h => by cases h
  | .array items _, _ + 1, _, h => by
    obtain ⟨values, hvalues, h⟩ := ok_of_bind h
    obtain ⟨_, -, h⟩ := ok_of_bind h
    cases h
    rw [sorted, sorted_of_itemValues items hvalues]
  | .object members _, _ + 1, _, h => by
    obtain ⟨values, hvalues, h⟩ := ok_of_bind h
    obtain ⟨_, -, h⟩ := ok_of_bind h
    cases h
    have hmembers : ∀ m ∈ sortMembers values, m.2.sorted = m.2 := fun m hm =>
      sorted_of_memberValues members hvalues m (Decoder.mem_of_mem_sortMembers hm)
    rw [sorted, sortedEntries_eq_self hmembers, (ascending_sortMembers values).sortMembers_eq]
  | .missing, _, _, h | .alien, _, _, h | .misspelt _, _, _, h => by cases h

/-- Items that were read are sorted. -/
theorem sorted_of_itemValues : ∀ (items : List Node) {room : Nat} {vs : List Json},
    itemValues room items = .ok vs → sortedItems vs = vs
  | [], _, _, h => by
    cases h
    rfl
  | n :: rest, _, _, h => by
    obtain ⟨v, hv, h⟩ := ok_of_bind h
    obtain ⟨vs, hvs, h⟩ := ok_of_bind h
    cases h
    rw [sortedItems, sorted_of_value n hv, sorted_of_itemValues rest hvs]

theorem sorted_of_memberValues : ∀ (members : List (StringLexeme × Node)) {room : Nat}
    {ms : List (String × Json)}, memberValues room members = .ok ms → ∀ m ∈ ms, m.2.sorted = m.2
  | [], _, _, h => by
    cases h
    exact fun _ hm => nomatch hm
  | (_, n) :: rest, _, _, h => by
    obtain ⟨key, -, h⟩ := ok_of_bind h
    obtain ⟨v, hv, h⟩ := ok_of_bind h
    obtain ⟨ms, hms, h⟩ := ok_of_bind h
    cases h
    exact List.forall_mem_cons.2 ⟨sorted_of_value n hv, sorted_of_memberValues rest hms⟩

end

end Node

/-- A legible value that was read is read back as it is. -/
theorem Decoder.reads_json_of_value {v : Json} {n : Node} {room : Nat} (h : n.value room = .ok v)
    (hlegible : v.Legible) : Decoder.json.Reads v.depth v v := by
  have hread := Decoder.reads_json hlegible
  rwa [n.sorted_of_value h] at hread

end MovieCatalog.Json
