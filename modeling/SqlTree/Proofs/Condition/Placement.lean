import SqlTree.Build.Filtered
import SqlTree.Proofs.Condition.Filter

/-!
# Where filters stand

The filter of a statement and the condition of a join stand in the text of what they belong to,
whatever a dialect makes of the rest (`Filtering.isWrittenIn`, `Node.isWrittenIn_join`).
-/

namespace SqlTree

open Condition

/-- The node stands in the text of the other one, whatever dialect adapts the two. -/
def Node.IsWrittenIn (n statement : Node) : Prop :=
  ∀ d parent, ∃ k, (n.rewrite d.adapt).piecesIn d (some k) <:+:
    (statement.rewrite d.adapt).piecesIn d parent

namespace Layout

theorem infix_clause {p : Option Part} {w : Part} (h : p = some w) (ps : List Piece) :
    w.2 <:+: ps ++ clause p := by
  rw [h, clause, after]
  exact List.infix_append_of_infix_right (List.infix_cons List.infix_rfl)

theorem infix_enclosed {ps qs : List Piece} (h : ps <:+: qs) (k : Kind) (parent : Option Kind) :
    ps <:+: enclosed k parent qs := by
  rw [enclosed]
  split
  · exact List.infix_append_of_infix_left (List.infix_append_of_infix_right h)
  · exact h

theorem infix_select {p : Select Part} {w : Part} (h : p.whereClause = some w) :
    w.2 <:+: select p := by
  rw [select]
  iterate 8 apply List.infix_append_of_infix_left
  exact infix_clause h _

theorem infix_update {p : Update Part} {w : Part} (h : p.whereClause = some w) :
    w.2 <:+: update p := by
  rw [update]
  iterate 2 apply List.infix_append_of_infix_left
  exact infix_clause h _

theorem infix_delete {p : Delete Part} {w : Part} (h : p.whereClause = some w) :
    w.2 <:+: delete p := by
  rw [delete]
  iterate 3 apply List.infix_append_of_infix_left
  exact infix_clause h _

end Layout

theorem Select.whereClause_paginate (style : Pagination) (p : Select Node) :
    (p.paginate style).whereClause = p.whereClause := by
  have hfetch : p.limitAsFetch.whereClause = p.whereClause := by
    unfold limitAsFetch
    split <;> rfl
  cases style with
  | limitOffset => rfl
  | fetchNext => exact hfetch
  | topOrFetch =>
    simp only [paginate]
    split
    · unfold limitAsTop
      split <;> rfl
    · unfold ordered
      split <;> exact hfetch

theorem Dialect.exists_adapt_select (d : Dialect) (p : Select Node) :
    ∃ q : Select Node, d.adapt ⟨.selectQuery p⟩ = ⟨.selectQuery q⟩ ∧
      q.whereClause = p.whereClause := by
  cases d with
  | mssql => exact ⟨_, rfl, p.whereClause_paginate _⟩
  | oracle => exact ⟨_, rfl, p.whereClause_paginate _⟩
  | _ => exact ⟨p, rfl, rfl⟩

namespace Node

theorem isWrittenIn_select {p : Select Node} {w : Node} (h : p.whereClause = some w) :
    w.IsWrittenIn ⟨.selectQuery p⟩ := by
  intro d parent
  obtain ⟨q, hq, hw⟩ := d.exists_adapt_select (p.each (rewrite d.adapt))
  rw [rewrite_mk, Shape.map_eq_each, Shape.each, hq, piecesIn_mk, Shape.map_eq_each]
  refine ⟨.selectQuery, Layout.infix_enclosed ?_ _ _⟩
  apply Layout.infix_select (w := adaptedPart d .selectQuery w)
  rw [Select.each, hw, Select.each, h]
  rfl

theorem isWrittenIn_update {p : Update Node} {w : Node} (h : p.whereClause = some w) :
    w.IsWrittenIn ⟨.updateQuery p⟩ := by
  intro d parent
  rw [piecesIn_adapted d (s := .updateQuery p) nofun nofun]
  refine ⟨.updateQuery, Layout.infix_enclosed ?_ _ _⟩
  apply Layout.infix_update (w := adaptedPart d .updateQuery w)
  rw [Update.each, h]
  rfl

theorem isWrittenIn_delete {p : Delete Node} {w : Node} (h : p.whereClause = some w) :
    w.IsWrittenIn ⟨.deleteQuery p⟩ := by
  intro d parent
  rw [piecesIn_adapted d (s := .deleteQuery p) nofun nofun]
  refine ⟨.deleteQuery, Layout.infix_enclosed ?_ _ _⟩
  apply Layout.infix_delete (w := adaptedPart d .deleteQuery w)
  rw [Delete.each, h]
  rfl

theorem isWrittenIn_join (type : JoinType) (table w : Node) :
    w.IsWrittenIn ⟨.join type table (some w)⟩ := by
  intro d parent
  rw [piecesIn_adapted d (s := .join type table (some w)) nofun nofun]
  exact ⟨.join, Layout.infix_clause (w := adaptedPart d .join w) rfl _⟩

end Node

/-- Statements that filter rows. -/
class Filtering (σ : Type) extends Filtered σ where
  statement : σ → Node
  isWrittenIn : ∀ {s : σ} {w : Node}, filter s = some w → w.IsWrittenIn (statement s)

instance : Filtering (Select Node) where
  statement p := ⟨.selectQuery p⟩
  isWrittenIn := Node.isWrittenIn_select

instance : Filtering (Update Node) where
  statement p := ⟨.updateQuery p⟩
  isWrittenIn := Node.isWrittenIn_update

instance : Filtering (Delete Node) where
  statement p := ⟨.deleteQuery p⟩
  isWrittenIn := Node.isWrittenIn_delete

end SqlTree
