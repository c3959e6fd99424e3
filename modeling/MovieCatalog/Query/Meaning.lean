import MovieCatalog.Query.Basic

/-!
# What a query means

A clause is true or false of a document, once it is known which values and numbers the fields of a
document hold and which words are found in it. A document matches a query when all clauses of the
first two groups hold. The alternatives constrain it only if there are no other clauses: then at
least one of them has to hold.
-/

namespace MovieCatalog

/-- What is known about documents. -/
structure Reading (Document : Type) where
  /-- A field of a document holds a value. -/
  Holds : Document → String → TermValue → Prop
  /-- A field of a document holds a number. -/
  HoldsNumber : Document → String → Binary64 → Prop
  /-- Words are found in a document, in fields that may be weighed. -/
  Finds : Document → String → List String → Prop

variable {Document : Type}

namespace Clause

/-- A clause is true of a document. -/
def Holds (k : Reading Document) (d : Document) : Clause → Prop
  | .multiMatch words fields => k.Finds d words fields
  | .term field value => k.Holds d field value
  | .range field bounds => ∃ x, k.HoldsNumber d field x ∧ bounds.admits x = true

end Clause

namespace Query

/-- All clauses of the first two groups are true of a document. -/
def HoldsAll (k : Reading Document) (q : Query) (d : Document) : Prop :=
  (∀ c ∈ q.must, c.Holds k d) ∧ ∀ c ∈ q.filter, c.Holds k d

/-- One of the alternatives is true of a document. -/
def HoldsSome (k : Reading Document) (q : Query) (d : Document) : Prop :=
  ∃ c ∈ q.should, c.Holds k d

/-- A document matches a query. -/
def Matches (k : Reading Document) (q : Query) (d : Document) : Prop :=
  q.HoldsAll k d ∧ (q.must = [] → q.filter = [] → q.should ≠ [] → q.HoldsSome k d)

end Query

end MovieCatalog
