import MovieCatalog.Bounds

/-!
# Queries

A query has three groups of clauses. Clauses that must hold and clauses that filter constrain the
result together; the clauses of the last group are alternatives. Matching every document is not a
query but the absence of one.
-/

namespace MovieCatalog

/-- A value that a field of a document is compared with. -/
inductive TermValue where
  | text (s : String)
  | integer (n : Int64)
deriving DecidableEq, Inhabited

/-- A clause. -/
inductive Clause where
  /-- Words are found in one of several fields, some of which may weigh more than others. -/
  | multiMatch (words : String) (fields : List String)
  /-- A field holds a value. -/
  | term (field : String) (value : TermValue)
  /-- A field holds a number between bounds. -/
  | range (field : String) (bounds : Bounds)
deriving DecidableEq, Inhabited

namespace Clause

/-- The clause for a range, if it has bounds that are finite. -/
def range? (field : String) (bounds : Bounds) : Option Clause :=
  bounds.usable?.map (.range field)

/-- Equality of clauses, bounds being compared as numbers. -/
def equal : Clause → Clause → Bool
  | .multiMatch w fs, .multiMatch w' fs' => w = w' ∧ fs = fs'
  | .term f v, .term f' v' => f = f' ∧ v = v'
  | .range f b, .range f' b' => f = f' ∧ b.equal b'
  | _, _ => false

/-- `equal` clause by clause. -/
def allEqual : List Clause → List Clause → Bool
  | [], [] => true
  | c :: cs, d :: ds => c.equal d && allEqual cs ds
  | _, _ => false

end Clause

/-- A group of clauses in a query. -/
inductive Group where
  | must
  | filter
  | should
deriving DecidableEq, Repr

/-- A query. -/
structure Query where
  must : List Clause
  filter : List Clause
  should : List Clause
deriving DecidableEq, Inhabited

namespace Query

/-- The query without clauses. -/
def empty : Query := ⟨[], [], []⟩

/-- A query without clauses constrains nothing. -/
def isEmpty (q : Query) : Bool :=
  q.must.isEmpty && q.filter.isEmpty && q.should.isEmpty

/-- Adds a clause at the end of a group. -/
def add (q : Query) (g : Group) (c : Clause) : Query :=
  match g with
  | .must => { q with must := q.must ++ [c] }
  | .filter => { q with filter := q.filter ++ [c] }
  | .should => { q with should := q.should ++ [c] }

/-- Equality of queries, bounds being compared as numbers. -/
def equal (q r : Query) : Bool :=
  Clause.allEqual q.must r.must && Clause.allEqual q.filter r.filter
    && Clause.allEqual q.should r.should

end Query

end MovieCatalog
