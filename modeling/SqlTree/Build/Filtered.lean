import SqlTree.Build.Clause

/-!
# Filters and joins

The clauses that selects, updates and deletes have in common.
-/

namespace SqlTree

/-- The condition of a join while it is put together. -/
structure JoinCondition where
  clause : Option Node := none

namespace JoinCondition

def onNode (j : JoinCondition) (c : Node) : JoinCondition := ⟨some (.onBoth j.clause c)⟩

def orOnNode (j : JoinCondition) (c : Node) : JoinCondition := ⟨some (.onEither j.clause c)⟩

def on (j : JoinCondition) (left : Term) (operator : String) (right : Operand) :
    Except Error JoinCondition := do
  return j.onNode (← left.compare operator right)

/-- Joins where two columns compare; the second one is read first. -/
def onColumns (j : JoinCondition) (left : Term) (operator : String) (right : Term) :
    Except Error JoinCondition := do
  let r ← right.reference
  j.on left operator (.node r)

/-- Joins all rows with all rows. -/
def onTrue (j : JoinCondition) : JoinCondition := j.onNode (.raw "true")

end JoinCondition

/-- A join of a table on a condition that is put together by `f`. -/
def Term.joined (t : Term) (joinType : JoinType)
    (f : JoinCondition → Except Error JoinCondition) : Except Error Node := do
  let table ← t.table
  let j ← f {}
  return ⟨.join joinType table j.clause⟩

/-- Statements that filter rows and join tables. -/
class Filtered (σ : Type) where
  filter : σ → Option Node
  setFilter : σ → Option Node → σ
  joins : σ → List Node
  setJoins : σ → List Node → σ
  filter_setFilter : ∀ s c, filter (setFilter s c) = c := by intros; rfl

instance : Filtered (Select Node) where
  filter p := p.whereClause
  setFilter p c := { p with whereClause := c }
  joins p := p.joins
  setJoins p js := { p with joins := js }

instance : Filtered (Update Node) where
  filter p := p.whereClause
  setFilter p c := { p with whereClause := c }
  joins p := p.joins
  setJoins p js := { p with joins := js }

instance : Filtered (Delete Node) where
  filter p := p.whereClause
  setFilter p c := { p with whereClause := c }
  joins p := p.joins
  setJoins p js := { p with joins := js }

namespace Filtered

variable {σ : Type} [Filtered σ]

/-- Keeps the rows that also meet the condition. -/
def whereNode (s : σ) (c : Node) : σ := setFilter s (some (.whereBoth (filter s) c))

/-- Keeps further rows, those that meet the condition. -/
def orWhereNode (s : σ) (c : Node) : σ := setFilter s (some (.whereEither (filter s) c))

/-- Keeps all rows. -/
def clearWhere (s : σ) : σ := setFilter s none

def whereCompare (s : σ) (left : Term) (operator : String) (right : Operand) : Except Error σ := do
  return whereNode s (← left.compare operator right)

def whereColumns (s : σ) (left : Term) (operator : String) (right : Term) : Except Error σ := do
  return whereNode s (← left.relate operator right)

def addJoin (s : σ) (j : Node) : σ := setJoins s (joins s ++ [j])

def joinWith (s : σ) (joinType : JoinType) (t : Term)
    (f : JoinCondition → Except Error JoinCondition) : Except Error σ := do
  return addJoin s (← t.joined joinType f)

/-- Joins a table where two columns are equal. -/
def joinOn (s : σ) (joinType : JoinType) (t : Term) (left right : String) : Except Error σ :=
  joinWith s joinType t fun j => j.onColumns (.text left) "=" (.text right)

/-- Joins a table without a condition. -/
def crossJoin (s : σ) (t : Term) : Except Error σ := joinWith s .cross t .ok

end Filtered

/-- Statements that may answer with the rows they changed. -/
class Returning (σ : Type) where
  returned : σ → Option Node
  setReturned : σ → Option Node → σ

instance : Returning (Insert Node) where
  returned p := p.returning
  setReturned p c := { p with returning := c }

instance : Returning (Update Node) where
  returned p := p.returning
  setReturned p c := { p with returning := c }

instance : Returning (Delete Node) where
  returned p := p.returning
  setReturned p c := { p with returning := c }

namespace Returning

variable {σ : Type} [Returning σ]

def returningNodes (s : σ) (ns : List Node) : σ :=
  setReturned s (some (.moreReturning (returned s) ns))

def returning (s : σ) (ts : List Term) : Except Error σ := do
  return returningNodes s (← ts.mapM Term.selection)

def returningAll (s : σ) : σ := returningNodes s [⟨.selectAll⟩]

def clearReturning (s : σ) : σ := setReturned s none

end Returning

end SqlTree
