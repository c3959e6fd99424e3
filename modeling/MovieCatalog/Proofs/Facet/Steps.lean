import MovieCatalog.Proofs.Facet.Codec
import MovieCatalog.Proofs.Json.Members

/-!
# Steps on facets

A step on one dimension changes the list of this dimension as it says and leaves the other lists
alone (`Facets.get_step`). So after any number of steps, on whatever dimensions, every list is what
the steps on its own dimension make of it, in their order (`Facets.get_run`), and this list stands
in the text of the facets under the name of the dimension (`Facets.shownUnder_text`).
-/

namespace MovieCatalog

open Json (Decoder Document)

/-- The list of one dimension after several steps. -/
def FacetStep.applyAll (steps : List FacetStep) (buckets : List FacetBucket) : List FacetBucket :=
  steps.foldl (fun buckets step => step.apply buckets) buckets

namespace Facets

/-! ## Runs -/

/-- The facets after several steps, each on the dimension that stands with it. -/
def run (facets : Facets) (steps : List (Dimension × FacetStep)) : Facets :=
  steps.foldl (fun facets s => facets.step s.1 s.2) facets

/-- The steps on one dimension, in their order. -/
def stepsOn (d : Dimension) (steps : List (Dimension × FacetStep)) : List FacetStep :=
  steps.filterMap fun s => if s.1 = d then some s.2 else none

/-- A step on the dimension comes first among its own steps. -/
theorem stepsOn_cons_self (d : Dimension) (step : FacetStep)
    (steps : List (Dimension × FacetStep)) :
    stepsOn d ((d, step) :: steps) = step :: stepsOn d steps :=
  List.filterMap_cons_some (if_pos rfl)

/-- A step on another dimension is none of its own. -/
theorem stepsOn_cons_of_ne {d e : Dimension} (h : e ≠ d) (step : FacetStep)
    (steps : List (Dimension × FacetStep)) : stepsOn d ((e, step) :: steps) = stepsOn d steps :=
  List.filterMap_cons_none (if_neg h)

/-- Where no step is on a dimension, there are no steps on it. -/
theorem stepsOn_eq_nil {d : Dimension} {steps : List (Dimension × FacetStep)}
    (h : ∀ s ∈ steps, s.1 ≠ d) : stepsOn d steps = [] :=
  List.filterMap_eq_nil_iff.2 fun s hs => if_neg (h s hs)

/-- A step changes the list of its own dimension and no other one. -/
theorem get_step (facets : Facets) (d e : Dimension) (step : FacetStep) :
    (facets.step d step).get e = if d = e then step.apply (facets.get e) else facets.get e := by
  by_cases h : d = e
  · subst h
    rw [if_pos rfl, Facets.step, PerDimension.get_modify_self]
  · rw [if_neg h, Facets.step, PerDimension.get_modify_of_ne _ _ (Ne.symm h)]

/-- After several steps every list is what the steps on its own dimension make of it. -/
theorem get_run (facets : Facets) (steps : List (Dimension × FacetStep)) (d : Dimension) :
    (facets.run steps).get d = FacetStep.applyAll (stepsOn d steps) (facets.get d) := by
  induction steps generalizing facets with
  | nil => rfl
  | cons s steps ih =>
    obtain ⟨e, step⟩ := s
    have hrun : facets.run ((e, step) :: steps) = (facets.step e step).run steps := rfl
    rw [hrun, ih, get_step]
    by_cases h : e = d
    · subst h
      rw [if_pos rfl, stepsOn_cons_self]
      rfl
    · rw [if_neg h, stepsOn_cons_of_ne h]

/-! ## Texts -/

/-- The text is one object, which has one member under the name, and what is read there is the list.
-/
def ShownUnder (text name : String) (buckets : List FacetBucket) : Prop :=
  ∃ members n, Document.read (Text.pieces text) = ⟨.object members .closed, false⟩ ∧
    Json.named name members = [n] ∧
    (Decoder.list FacetBucket.decoder) .start n = .ok buckets

/-- In the text of facets the list of a dimension is shown under the name of the dimension. -/
theorem shownUnder_text (facets : Facets) (d : Dimension) :
    ShownUnder facets.toJson.text d.name (facets.get d) := by
  have hmem : (d.name, FacetBucket.listToJson (facets.get d))
      ∈ Dimension.all.map fun e => (e.name, FacetBucket.listToJson (facets.get e)) :=
    List.mem_map_of_mem (f := fun e : Dimension => (e.name, _)) d.mem_all
  refine ⟨_, _, Document.read_text _, Json.named_memberNodes ?_ hmem, ?_⟩
  · rw [List.map_map]
    exact name_nodup
  · exact FacetBucket.reads_listToJson _ .start (by decide)

/-- After any steps on any dimensions, the list of a dimension is what the steps on this dimension
make, in their order, of the list that it had. So steps on other dimensions leave it alone, and
where this list and the steps on this dimension are the same, other lists and other steps make no
difference. The text of the facets shows the list under the name of the dimension. -/
theorem run_on_own_steps (facets : Facets) (steps : List (Dimension × FacetStep))
    (d : Dimension) :
    (facets.run steps).get d = FacetStep.applyAll (stepsOn d steps) (facets.get d) ∧
      ((∀ s ∈ steps, s.1 ≠ d) → (facets.run steps).get d = facets.get d) ∧
      (∀ (facets' : Facets) (steps' : List (Dimension × FacetStep)),
        facets'.get d = facets.get d → stepsOn d steps' = stepsOn d steps →
        (facets'.run steps').get d = (facets.run steps).get d) ∧
      ShownUnder (facets.run steps).toJson.text d.name ((facets.run steps).get d) := by
  refine ⟨get_run facets steps d, fun hother => ?_, fun facets' steps' hlist hsteps => ?_,
    shownUnder_text _ d⟩
  · rw [get_run, stepsOn_eq_nil hother]
    rfl
  · rw [get_run, get_run, hlist, hsteps]

/-- The list of the genres is not the one of the years, though the steps alternate. -/
example :
    let steps := [(Dimension.genre, FacetStep.push ⟨"Drama", 3⟩), (.year, .push ⟨"2014", 1⟩),
      (.genre, .look), (.year, .clear), (.genre, .push ⟨"Crime", 2⟩), (.year, .push ⟨"2015", 5⟩)]
    (empty.run steps).get .genre = [⟨"Drama", 3⟩, ⟨"Crime", 2⟩] ∧
      (empty.run steps).get .year = [⟨"2015", 5⟩] ∧ (empty.run steps).get .rating = [] := by
  decide

end Facets

end MovieCatalog
