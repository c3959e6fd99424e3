import MovieCatalog.Proofs.Query.Contents
import MovieCatalog.Proofs.Search.Presence
import Mathlib.Data.Option.Basic
import Mathlib.Data.List.Forall2

/-!
# What a search keeps of a request

A search forgets how a country is spelt, blank texts, bounds that are not finite and how a window of
the result is given by a page and a limit. Two requests that agree in everything else
(`Request.Agrees`) come to equal searches, and no other two do
(`Search.ofRequest_equal_iff_agrees`).

The criteria that filter stand in one list without marks of their places. It can be read back since
each clause names a field and no two criteria ask of the same one (`Clause.allEqual_filterMap_iff`).
-/

namespace MovieCatalog

namespace Clause

/-- Two clauses that may be absent are both absent, or equal. -/
abbrev Same (c d : Option Clause) : Prop :=
  Option.Rel (fun c d => c.equal d = true) c d

/-- Equal clauses ask of the same field. -/
theorem field?_eq_of_equal {c d : Clause} (h : c.equal d = true) : c.field? = d.field? := by
  cases c <;> cases d <;> simp [equal] at h <;> simp [field?, h]

/-- Clauses that may be absent, each of which asks of the field in the same place. -/
def Slots (fields : List String) (cs : List (Option Clause)) : Prop :=
  List.Forall₂ (fun field c => ∀ d, c = some d → d.field? = some field) fields cs

/-- A clause that is there asks of one of the fields. -/
theorem Slots.field?_mem {fields : List String} {cs : List (Option Clause)} (h : Slots fields cs)
    {c : Clause} (hc : c ∈ cs.filterMap id) : ∃ field ∈ fields, c.field? = some field := by
  induction h with
  | nil => cases hc
  | @cons field o fields cs ho _ ih =>
    cases o with
    | none =>
      obtain ⟨g, hg, hcg⟩ := ih hc
      exact ⟨g, List.mem_cons_of_mem _ hg, hcg⟩
    | some d =>
      rcases List.mem_cons.1 hc with rfl | hc
      · exact ⟨field, List.mem_cons_self, ho c rfl⟩
      · obtain ⟨g, hg, hcg⟩ := ih hc
        exact ⟨g, List.mem_cons_of_mem _ hg, hcg⟩

/-- A clause about another field asks of none of the fields of those that are there. -/
theorem Slots.field?_ne {fields : List String} {cs : List (Option Clause)} (h : Slots fields cs)
    {c : Clause} {field : String} (hc : c.field? = some field) (hfield : field ∉ fields) :
    ∀ d ∈ cs.filterMap id, c.field? ≠ d.field? := by
  intro d hd heq
  obtain ⟨g, hg, hdg⟩ := h.field?_mem hd
  obtain rfl : field = g := Option.some.inj (hc.symm.trans (heq.trans hdg))
  exact hfield hg

/-- Two lists are not equal if one begins with a clause whose field none of the other asks of. -/
theorem not_allEqual_of_field?_ne {c : Clause} (cs : List Clause) {ds : List Clause}
    (h : ∀ d ∈ ds, c.field? ≠ d.field?) :
    allEqual (c :: cs) ds = false ∧ allEqual ds (c :: cs) = false := by
  cases ds with
  | nil => exact ⟨rfl, rfl⟩
  | cons d ds =>
    have hne := h d List.mem_cons_self
    have hcd : c.equal d = false := Bool.eq_false_iff.2 (mt field?_eq_of_equal hne)
    have hdc : d.equal c = false := Bool.eq_false_iff.2 (mt field?_eq_of_equal hne.symm)
    simp [allEqual, hcd, hdc]

/-- Without the absent ones, two lists of clauses about distinct fields are equal exactly when the
clauses about each field are. -/
theorem allEqual_filterMap_iff {fields : List String} (hfields : fields.Nodup)
    {cs ds : List (Option Clause)} (hcs : Slots fields cs) (hds : Slots fields ds) :
    allEqual (cs.filterMap id) (ds.filterMap id) = true ↔ List.Forall₂ Same cs ds := by
  induction hcs generalizing ds with
  | nil =>
    cases hds
    simp [allEqual]
  | @cons field c fields cs hc hcs ih =>
    cases hds with
    | @cons _ d _ ds hd hds =>
      obtain ⟨hfield, hfields⟩ := List.nodup_cons.1 hfields
      specialize ih hfields hds
      cases c with
      | none =>
        cases d with
        | none => simpa using ih
        | some d =>
          have hne := Slots.field?_ne hcs (hd d rfl) hfield
          have hlists := (not_allEqual_of_field?_ne (ds.filterMap id) hne).2
          simpa using hlists
      | some c =>
        cases d with
        | none =>
          have hne := Slots.field?_ne hds (hc c rfl) hfield
          have hlists := (not_allEqual_of_field?_ne (cs.filterMap id) hne).1
          simpa using hlists
        | some d => simpa [allEqual] using fun _ => ih

/-- Clauses with one value each are equal exactly when the values are, if `f` tells values apart. -/
theorem same_map_iff {α : Type} {f : α → Clause} (hf : ∀ a b, (f a).equal (f b) = true ↔ a = b)
    {x y : Option α} : Same (x.map f) (y.map f) ↔ x = y := by
  cases x <;> cases y <;> simp [Same, hf]

/-- One clause that is given twice or not at all. -/
theorem same_map_const_iff {α : Type} {c : Clause} (hc : c.equal c = true) {x y : Option α} :
    Same (x.map fun _ => c) (y.map fun _ => c) ↔ (x.isSome ↔ y.isSome) := by
  cases x <;> cases y <;> simp [Same, hc]

/-- Lists that are equal clause by clause are empty together. -/
theorem isEmpty_eq_of_allEqual {cs ds : List Clause} (h : allEqual cs ds = true) :
    cs.isEmpty = ds.isEmpty := by
  cases cs <;> cases ds <;> first | rfl | cases h

/-- Lists of at most one clause are equal if both clauses are missing or both are there and equal.
-/
theorem allEqual_toList_iff {c d : Option Clause} :
    allEqual c.toList d.toList = true ↔ Same c d := by
  cases c <;> cases d <;> simp [Same, allEqual]

/-- Lists of clauses of one kind are equal if what they are made of is. -/
theorem allEqual_map_iff {α : Type} {f : α → Clause}
    (hf : ∀ a b, (f a).equal (f b) = true ↔ a = b) {xs ys : List α} :
    allEqual (xs.map f) (ys.map f) = true ↔ xs = ys := by
  induction xs generalizing ys with
  | nil => cases ys <;> simp [allEqual]
  | cons x xs ih => cases ys <;> simp [allEqual, hf, ih]

end Clause

/-! ## What requests agree in -/

namespace Request

/-- Two bounds are both of no use, or finite and equal as numbers. -/
def SameBound (x y : Option Binary64) : Prop :=
  Option.Rel (fun x y => x.equal y = true) (x.filter (·.isFinite)) (y.filter (·.isFinite))

/-- The number of movies on a page: the limit, or ten if it is absent or zero. -/
def pageSize (r : Request) : Nat :=
  match r.limit with
  | none => 10
  | some limit => if limit.toNat = 0 then 10 else limit.toNat

/-- The number of movies before the page, or the greatest number of 64 bits if they are more. -/
def pageOffset (r : Request) : Nat :=
  match r.page with
  | none => 0
  | some page => min (page.toNat * r.pageSize) (Word.size64 - 1)

/-- Two requests agree in everything that counts. -/
structure Agrees (r s : Request) : Prop where
  words : ∀ t, ¬ Text.AllBlank t → (r.words = some t ↔ s.words = some t)
  /-- Which country it is does not matter. -/
  country : (∃ t, r.country = some t ∧ ¬ Text.AllBlank t) ↔
    ∃ t, s.country = some t ∧ ¬ Text.AllBlank t
  language : ∀ t, ¬ Text.AllBlank t → (r.language = some t ↔ s.language = some t)
  year : r.year = s.year
  ratingMin : SameBound r.rating.least s.rating.least
  ratingMax : SameBound r.rating.greatest s.rating.greatest
  durationMin : SameBound r.duration.least s.duration.least
  durationMax : SameBound r.duration.greatest s.duration.greatest
  genres : r.genres = s.genres
  pageSize : r.pageSize = s.pageSize
  pageOffset : r.pageOffset = s.pageOffset

end Request

namespace Search

open Request (SameBound)

/-! ## The window -/

/-- A number that is zero counts as none. -/
theorem filter_pos_some (n : UInt64) :
    (some n).filter (0 < ·) = if n.toNat = 0 then none else some n := by
  by_cases h : n.toNat = 0
  · rw [if_pos h, Option.filter_some, if_neg (by simp [UInt64.lt_iff_toNat_lt, h])]
  · rw [if_neg h, Option.filter_some,
      if_pos (by simpa [UInt64.lt_iff_toNat_lt] using Nat.pos_of_ne_zero h)]

/-- The size of the window is that of a page. -/
theorem toNat_sizeOf (r : Request) : (sizeOf r.limit).toNat = r.pageSize := by
  unfold sizeOf Request.pageSize
  cases r.limit with
  | none => rfl
  | some limit =>
    rw [filter_pos_some]
    dsimp only
    split <;> rfl

/-- A product of words is the product of their numbers, up to the greatest word. -/
theorem toNat_saturatingMul (a b : UInt64) :
    (saturatingMul a b).toNat = min (a.toNat * b.toNat) (Word.size64 - 1) :=
  UInt64.toNat_ofNat_of_lt' (by simp only [Word.size64, UInt64.size]; omega)

/-- The start of the window is that of the page, as far as words reach. -/
theorem toNat_offsetOf (r : Request) :
    (offsetOf r.page (sizeOf r.limit)).toNat = r.pageOffset := by
  unfold offsetOf Request.pageOffset
  cases r.page with
  | none => rfl
  | some page =>
    rw [filter_pos_some]
    dsimp only
    split
    · next hzero => simp [hzero]
    · rw [Option.map_some, Option.getD_some, toNat_saturatingMul, toNat_sizeOf]

/-! ## The clauses -/

/-- What is present of two texts is the same exactly when they agree in all that is not blank. -/
theorem present?_eq_present?_iff {x y : Option String} :
    present? x = present? y ↔ ∀ t, ¬ Text.AllBlank t → (x = some t ↔ y = some t) := by
  rw [Option.ext_iff]
  simp only [present?_eq_some_iff, and_congr_left_iff]

/-- A text is present if it is given and not blank. -/
theorem isSome_present?_iff {x : Option String} :
    (present? x).isSome ↔ ∃ t, x = some t ∧ ¬ Text.AllBlank t := by
  simp only [Option.isSome_iff_exists, present?_eq_some_iff]

/-- Ranges of one field are the same exactly when the bounds that are of use are. -/
theorem same_range?_iff {field : String} {b c : Bounds} :
    Clause.Same (Clause.range? field b) (Clause.range? field c) ↔
      SameBound b.least c.least ∧ SameBound b.greatest c.greatest := by
  unfold Clause.range? Bounds.usable? SameBound Bounds.finite
  dsimp only
  cases b.least.filter (·.isFinite) <;> cases b.greatest.filter (·.isFinite) <;>
    cases c.least.filter (·.isFinite) <;> cases c.greatest.filter (·.isFinite) <;>
    simp [Clause.Same, Clause.equal, Bounds.equal, Bounds.equal.sameBound]

/-- The fields of the five criteria that filter. -/
def filterFields : List String :=
  [Index.country, Index.rating, Index.language, Index.year, Index.duration]

/-- Filters concern different fields. -/
theorem filterFields_nodup : filterFields.Nodup := by
  decide

/-- A criterion with one value asks of the field of its clauses. -/
theorem field?_of_map {α : Type} {f : α → Clause} {field : String}
    (hf : ∀ a, (f a).field? = some field) {x : Option α} (c : Clause) (h : x.map f = some c) :
    c.field? = some field := by
  obtain ⟨a, -, rfl⟩ := Option.map_eq_some_iff.1 h
  exact hf a

/-- The list of the clauses that filter tells the five criteria apart, whichever of them are asked
for. -/
theorem filterClauses_allEqual_iff {r s : Request} :
    Clause.allEqual (filterClauses r) (filterClauses s) = true ↔
      ((present? r.country).isSome ↔ (present? s.country).isSome) ∧
      (SameBound r.rating.least s.rating.least ∧ SameBound r.rating.greatest s.rating.greatest) ∧
      present? r.language = present? s.language ∧ r.year = s.year ∧
      (SameBound r.duration.least s.duration.least ∧
        SameBound r.duration.greatest s.duration.greatest) := by
  unfold filterClauses
  rw [Clause.allEqual_filterMap_iff filterFields_nodup ?slots ?slots']
  case slots | slots' =>
    exact .cons (field?_of_map fun _ => rfl) <| .cons (field?_of_map fun _ => rfl) <|
      .cons (field?_of_map fun _ => rfl) <| .cons (field?_of_map fun _ => rfl) <|
      .cons (field?_of_map fun _ => rfl) .nil
  simp only [List.forall₂_cons, List.Forall₂.nil, and_true]
  rw [Clause.same_map_const_iff (by simp [Clause.equal]), same_range?_iff,
    Clause.same_map_iff (by simp [Clause.equal]), Clause.same_map_iff (by simp [Clause.equal]),
    same_range?_iff]

/-- Queries of requests are equal exactly when their words, filters and genres are. -/
theorem queryOf_equal_iff {r s : Request} :
    (queryOf r).equal (queryOf s) = true ↔
      present? r.words = present? s.words ∧
      Clause.allEqual (filterClauses r) (filterClauses s) = true ∧ r.genres = s.genres := by
  simp only [Query.equal, queryOf, Bool.and_eq_true, wordClauses, genreClauses,
    Clause.allEqual_toList_iff, and_assoc]
  rw [Clause.same_map_iff (by simp [Clause.equal]),
    Clause.allEqual_map_iff (by simp [Clause.equal])]

/-- Of two equal queries, both have clauses or none has. -/
theorem isEmpty_eq_of_equal {q q' : Query} (h : q.equal q' = true) : q.isEmpty = q'.isEmpty := by
  simp only [Query.equal, Bool.and_eq_true] at h
  obtain ⟨⟨hmust, hfilter⟩, hshould⟩ := h
  rw [Query.isEmpty, Query.isEmpty, Clause.isEmpty_eq_of_allEqual hmust,
    Clause.isEmpty_eq_of_allEqual hfilter, Clause.isEmpty_eq_of_allEqual hshould]

/-- Queries without clauses are equal. -/
theorem equal_of_isEmpty {q q' : Query} (hq : q.isEmpty = true) (hq' : q'.isEmpty = true) :
    q.equal q' = true := by
  simp only [Query.isEmpty, Bool.and_eq_true, List.isEmpty_iff] at hq hq'
  simp [Query.equal, hq, hq', Clause.allEqual]

/-- Leaving out a query without clauses loses nothing: searches are equal exactly when their windows
and the queries of all clauses are. -/
theorem ofRequest_equal_iff {r s : Request} :
    (ofRequest r).equal (ofRequest s) = true ↔
      (ofRequest r).offset = (ofRequest s).offset ∧ (ofRequest r).size = (ofRequest s).size ∧
        (queryOf r).equal (queryOf s) = true := by
  simp only [equal, Bool.and_eq_true, decide_eq_true_eq, and_assoc, ofRequest_query]
  refine and_congr_right fun _ => and_congr_right fun _ => ?_
  cases hr : (queryOf r).isEmpty <;> cases hs : (queryOf s).isEmpty
  case false.false => rfl
  case true.true => simp [equal_of_isEmpty hr hs]
  all_goals
    simp only [Bool.false_eq_true, if_true, if_false, false_iff]
    intro heq
    have hsame := isEmpty_eq_of_equal heq
    rw [hr, hs] at hsame
    cases hsame

/-- Two requests come to equal searches exactly when they agree in everything that counts: the words
and the language unless they are blank, whether there is a country that is not blank, the year, the
finite bounds as numbers, the genres in their order, and the window of the result. In particular the
query does not depend on the page and its size, and the window depends on nothing else. -/
theorem ofRequest_equal_iff_agrees (r s : Request) :
    ((ofRequest r).equal (ofRequest s) = true ↔ r.Agrees s) ∧
      (∀ page limit,
        (ofRequest { r with page := page, limit := limit }).query = (ofRequest r).query) ∧
      (ofRequest { s with page := r.page, limit := r.limit }).offset = (ofRequest r).offset ∧
      (ofRequest { s with page := r.page, limit := r.limit }).size = (ofRequest r).size := by
  have hsize : (ofRequest r).size = (ofRequest s).size ↔ r.pageSize = s.pageSize := by
    rw [← toNat_sizeOf, ← toNat_sizeOf, UInt64.toNat_inj]
    rfl
  have hoffset : (ofRequest r).offset = (ofRequest s).offset ↔ r.pageOffset = s.pageOffset := by
    rw [← toNat_offsetOf, ← toNat_offsetOf, UInt64.toNat_inj]
    rfl
  refine ⟨?_, fun _ _ => rfl, rfl, rfl⟩
  rw [ofRequest_equal_iff, hsize, hoffset, queryOf_equal_iff, filterClauses_allEqual_iff,
    present?_eq_present?_iff, present?_eq_present?_iff, isSome_present?_iff, isSome_present?_iff]
  constructor
  · rintro ⟨hoffset, hsize, hwords, ⟨hcountry, hrating, hlanguage, hyear, hduration⟩, hgenres⟩
    exact ⟨hwords, hcountry, hlanguage, hyear, hrating.1, hrating.2, hduration.1, hduration.2,
      hgenres, hsize, hoffset⟩
  · intro h
    exact ⟨h.pageOffset, h.pageSize, h.words, ⟨h.country, ⟨h.ratingMin, h.ratingMax⟩, h.language,
      h.year, h.durationMin, h.durationMax⟩, h.genres⟩

/-- Another country, the other zero, a bound that is not a number and a limit of zero make no
difference. -/
example :
    (ofRequest { Request.empty with
      country := some "France", rating := ⟨some .nan, some (.signedZero true)⟩,
      page := some 3, limit := some 0 }).equal
    (ofRequest { Request.empty with
      country := some "Spain", rating := ⟨none, some .zero⟩,
      page := some 3, limit := some 10 }) = true := by
  decide +kernel

end Search

end MovieCatalog
