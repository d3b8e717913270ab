import SqlTree.Build.Start

/-!
# Drafts

Statements in the making, of every kind.  A draft is a plain value, so that several statements can
be made from one; drafts made from one another carry the same number.
-/

namespace SqlTree

/-- A statement in the making.  A branch of a merge that waits for its action is not one yet. -/
inductive Draft where
  | select (p : Select Node)
  | insert (p : Insert Node)
  | update (p : Update Node)
  | delete (p : Delete Node)
  | merge (p : Merge Node)
  | matched (b : Merge.Matched)
  | unmatched (b : Merge.Unmatched)
  | createTable (p : CreateTable Node)
  | alterTable (p : AlterTable Node)
  | createIndex (p : CreateIndex Node)
  | createView (p : CreateView Node)
  | definition (n : Node)

/-- The statement, if the draft is one. -/
def Draft.node? : Draft → Option Node
  | .select p => some p.node
  | .insert p => some p.node
  | .update p => some p.node
  | .delete p => some p.node
  | .merge p => some p.node
  | .matched _ => none
  | .unmatched _ => none
  | .createTable p => some p.node
  | .alterTable p => some p.node
  | .createIndex p => some p.node
  | .createView p => some p.node
  | .definition n => some n

/-- A draft with the number it was started under. -/
structure Numbered where
  number : Nat
  draft : Draft

namespace Numbered

/-- A new draft under the next number, and the number after it. -/
def start (next : Nat) (d : Draft) : Numbered × Nat := (⟨next, d⟩, next + 1)

/-- A draft made from this one. -/
def step (f : Draft → Except Error Draft) (n : Numbered) : Except Error Numbered := do
  return { n with draft := ← f n.draft }

/-- The number of the statement, if the draft is one. -/
def number? (n : Numbered) : Option Nat := n.draft.node?.map fun _ => n.number

end Numbered

end SqlTree
