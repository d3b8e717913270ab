import SqlTree.Build.Insert
import SqlTree.Build.Update

/-!
# Merges

A merge decides for every row what to do by its branches.  A branch is opened by its condition and
closed by its action, and which actions there are depends on whether there is a row to change.
-/

namespace SqlTree.Merge

def begin (table : Node) (withClause : Option Node) : Merge Node := { into := table, withClause }

variable (p : Merge Node)

def node : Node := ⟨.mergeQuery p⟩

def usingWith (t : Term) (f : JoinCondition → Except Error JoinCondition) :
    Except Error (Merge Node) := do
  return { p with usingJoin := some (← t.joined .inner f) }

/-- Merges a table where two columns are equal. -/
def usingOn (t : Term) (left right : String) : Except Error (Merge Node) :=
  p.usingWith t fun j => j.onColumns (.text left) "=" (.text right)

def branch (condition action : Node) : Merge Node :=
  { p with branches := p.branches ++ [⟨.when condition (some action)⟩] }

/-- The condition of a branch. -/
def condition (negated bySource : Bool) (more : Option Node) : Node :=
  match more with
  | some c => .both ⟨.matched negated bySource⟩ c
  | none => ⟨.matched negated bySource⟩

/-- A branch for rows of the target, which waits for its action. -/
structure Matched where
  merge : Merge Node
  condition : Node

/-- A branch for rows that the target lacks, which waits for its action. -/
structure Unmatched where
  merge : Merge Node
  condition : Node

def whenMatched (more : Option Node) : Matched := ⟨p, condition false false more⟩

def whenNotMatchedBySource (more : Option Node) : Matched := ⟨p, condition true true more⟩

def whenNotMatched (more : Option Node) : Unmatched := ⟨p, condition true false more⟩

def nothing : Node := .raw "do nothing"

namespace Matched

variable (b : Matched)

def update (pairs : List (String × Node)) : Except Error (Merge Node) := do
  return b.merge.branch b.condition ⟨.updateQuery { updates := ← Node.updates pairs }⟩

def delete : Merge Node :=
  b.merge.branch b.condition ⟨.deleteQuery { fromClause := ⟨.fromClause []⟩ }⟩

def doNothing : Merge Node := b.merge.branch b.condition nothing

end Matched

namespace Unmatched

variable (b : Unmatched)

def insert (row : GivenRow) : Except Error (Merge Node) :=
  if row.isEmpty then .error (.validation .noMergeValues)
  else .ok (b.merge.branch b.condition ⟨.insertQuery {
    columns := GivenRow.columnNodes [row], values := some (GivenRow.values [row]) }⟩)

def doNothing : Merge Node := b.merge.branch b.condition nothing

end Unmatched

end SqlTree.Merge
