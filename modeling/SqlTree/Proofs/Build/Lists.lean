import SqlTree.Build.Operand
import SqlTree.Proofs.Build.Rows

/-!
# Lists of plain values

A list of plain values is kept without a node for each of them.  Spelling such lists out, at any
places of a tree, changes nothing in its statement (`Node.SpelledOut.statement_eq`), so a list of
operands is written item by item, whichever way it is kept (`Operand.lists_agree`).
-/

namespace SqlTree

/-- The text and the parameters of pieces, unless something in them cannot be expressed. -/
def Piece.statement (d : Dialect) (ps : List Piece) : Except Error (String × List Value) :=
  match Piece.refusal? ps with
  | some f => .error (.unsupported d.name f)
  | none => .ok (Piece.sql d ps, Piece.parameters ps)

namespace Node

/-- The text and the parameters of a compiled tree. -/
def statement (d : Dialect) (n : Node) : Except Error (String × List Value) :=
  (n.compile d).map fun c => (c.sql, c.parameters)

theorem statement_eq (d : Dialect) {n : Node} (h : n.wellFormed = true) :
    n.statement d = Piece.statement d ((n.rewrite d.adapt).pieces d) := by
  unfold statement Piece.statement
  split
  · rename_i f hr
    rw [compile_of_refusal h hr]
    rfl
  · rename_i hr
    rw [compile_of_no_refusal h hr]
    rfl

/-- A list of plain values as a list of bound ones. -/
def spellOut : Node → Node
  | ⟨.valueList (.primitive vs)⟩ => ⟨.valueList (.expressions (vs.map bound))⟩
  | n => n

/-- A tree and the same one with some of its lists of plain values spelled out. -/
inductive SpelledOut : Node → Node → Prop
  | list (vs : List Value) :
    SpelledOut ⟨.valueList (.primitive vs)⟩ ⟨.valueList (.expressions (vs.map bound))⟩
  | node (u : Shape (Node × Node)) (h : ∀ c ∈ u.children, SpelledOut c.1 c.2) :
    SpelledOut ⟨u.map Prod.fst⟩ ⟨u.map Prod.snd⟩

theorem kind_spellOut (n : Node) : n.spellOut.kind = n.kind := by
  unfold spellOut
  split <;> rfl

theorem spellOut_of_not_leaf {s : Shape Node} (h : Layout.isLeaf s = false) :
    spellOut ⟨s⟩ = ⟨s⟩ := by
  cases s with
  | valueList items =>
    cases items with
    | primitive vs => cases h
    | expressions ns => rfl
  | _ => rfl

theorem rewrite_adapt_bounds (d : Dialect) (vs : List Value) :
    rewrite d.adapt ⟨.valueList (.expressions (vs.map bound))⟩ =
      ⟨.valueList (.expressions (vs.map bound))⟩ := by
  refine rewrite_valueList ?_ (d.adapt_eq_self nofun nofun)
  intro n hn
  obtain ⟨v, -, rfl⟩ := List.mem_map.mp hn
  exact rewrite_adapt_of_isLeaf d rfl

theorem onLeaves_spellOut : OnLeaves spellOut where
  kind := kind_spellOut
  other := spellOut_of_not_leaf
  value v i := ⟨i, rfl⟩
  bit _ := rfl
  adapted d s h := by
    obtain ⟨name, rfl⟩ | ⟨v, immediate, rfl⟩ | ⟨vs, rfl⟩ := Layout.eq_of_isLeaf h
    · exact rewrite_adapt_of_isLeaf d rfl
    · exact rewrite_adapt_of_isLeaf d rfl
    · exact rewrite_adapt_bounds d vs

/-- A list is written in the same pieces when it is spelled out. -/
theorem piecesIn_spellOut (d : Dialect) {s : Shape Node} (h : Layout.isLeaf s = true)
    (parent : Option Kind) : (spellOut ⟨s⟩).piecesIn d parent = piecesIn d ⟨s⟩ parent := by
  obtain ⟨name, rfl⟩ | ⟨v, immediate, rfl⟩ | ⟨vs, rfl⟩ := Layout.eq_of_isLeaf h
  · rfl
  · rfl
  · have hlist := GivenRow.piecesIn_valueList d (.expressions (vs.map bound)) parent
    have hplain := GivenRow.piecesIn_valueList d (.primitive vs) parent
    rw [rewrite_adapt_bounds] at hlist
    rw [rewrite_adapt_of_isLeaf d rfl] at hplain
    exact hlist.trans hplain.symm

theorem piecesIn_rewrite_spellOut (d : Dialect) (n : Node) (parent : Option Kind) :
    (n.rewrite spellOut).piecesIn d parent = n.piecesIn d parent := by
  have hid : Layout.Congruence d d fun ps qs => qs = ps.map id :=
    .ofWords rfl (fun h h' => by rw [h, h', List.map_append]) (fun _ => rfl) (fun _ => rfl)
      (fun _ => rfl)
  rw [onLeaves_spellOut.piecesIn_rewrite hid, List.map_id]
  intro s hs parent
  rw [piecesIn_spellOut d hs, List.map_id]

namespace SpelledOut

variable {m n : Node} (h : SpelledOut m n)
include h

theorem kind_eq : n.kind = m.kind := by
  cases h with
  | list vs => rfl
  | node u h => exact (Shape.kind_map _ u).trans (Shape.kind_map _ u).symm

/-- The two trees are one when all lists are spelled out. -/
theorem rewrite_spellOut : n.rewrite spellOut = m.rewrite spellOut := by
  induction h with
  | list vs =>
    have hplain : rewrite spellOut ⟨.valueList (.primitive vs)⟩ =
        ⟨.valueList (.expressions (vs.map bound))⟩ := rewrite_of_isLeaf spellOut rfl
    rw [hplain]
    refine rewrite_valueList ?_ rfl
    intro n hn
    obtain ⟨v, -, rfl⟩ := List.mem_map.mp hn
    exact rewrite_of_isLeaf spellOut rfl
  | node u h ih =>
    rw [rewrite_mk, rewrite_mk, Shape.map_map, Shape.map_map]
    exact congrArg (fun s => spellOut ⟨s⟩) (u.map_congr ih)

theorem wellFormed (hm : m.wellFormed = true) : n.wellFormed = true := by
  induction h with
  | list vs =>
    apply wellFormed_valueList
    intro n hn
    obtain ⟨v, -, rfl⟩ := List.mem_map.mp hn
    rfl
  | node u h ih =>
    rw [wellFormed_mk_iff, Shape.slotted_map] at hm ⊢
    intro q hq
    obtain ⟨p, hp, rfl⟩ := List.mem_map.mp hq
    have hc := Shape.mem_children_of_mem_slotted hp
    obtain ⟨hadmits, hwell⟩ := hm _ (List.mem_map_of_mem hp)
    refine ⟨?_, ih p.2 hc hwell⟩
    rw [(h p.2 hc).kind_eq]
    exact hadmits

/-- Spelling lists out changes neither the statement nor its failure. -/
theorem statement_eq (d : Dialect) (hm : m.wellFormed = true) :
    n.statement d = m.statement d := by
  -- neither tree is compared with the other, but both with the one they are spelled out to
  have hpieces : ∀ t : Node,
      (t.rewrite d.adapt).pieces d = ((t.rewrite spellOut).rewrite d.adapt).pieces d := by
    intro t
    rw [onLeaves_spellOut.rewrite_adapt]
    exact (piecesIn_rewrite_spellOut d _ none).symm
  rw [Node.statement_eq d hm, Node.statement_eq d (h.wellFormed hm), hpieces n, hpieces m,
    h.rewrite_spellOut]

end SpelledOut

end Node

namespace Operand

open GivenRow (inParens itemPieces)

theorem map_bound_of_mapM_value? {os : List Operand} {vs : List Value}
    (h : os.mapM value? = some vs) : vs.map Node.bound = os.map bound := by
  induction os generalizing vs with
  | nil =>
    cases h
    rfl
  | cons o os ih =>
    rw [List.mapM_cons] at h
    obtain ⟨v, hv, h⟩ := Option.bind_eq_some_iff.mp h
    obtain ⟨ws, hws, h⟩ := Option.bind_eq_some_iff.mp h
    cases h
    cases o with
    | value w =>
      cases hv
      rw [List.map_cons, List.map_cons, ih hws]
      rfl
    | node n => cases hv

/-- However a list is kept, its items are the operands. -/
theorem exists_list (os : List Operand) :
    ∃ items, list os = ⟨.valueList items⟩ ∧ items.nodes = os.map bound := by
  unfold list
  split
  · rename_i vs h
    exact ⟨_, rfl, map_bound_of_mapM_value? h⟩
  · exact ⟨_, rfl, rfl⟩

theorem statement_list (d : Dialect) {os : List Operand}
    (h : ∀ o ∈ os, o.bound.wellFormed = true) :
    (list os).statement d = Piece.statement d (inParens (os.map fun o => itemPieces d o.bound)) := by
  obtain ⟨items, hlist, hitems⟩ := exists_list os
  have hwell : ∀ n ∈ items.nodes, n.wellFormed = true := by
    intro n hn
    obtain ⟨o, ho, rfl⟩ := List.mem_map.mp (hitems ▸ hn)
    exact h o ho
  rw [hlist, Node.statement_eq d (GivenRow.wellFormed_listItems hwell), Node.pieces,
    GivenRow.piecesIn_valueList, hitems, List.map_map]
  rfl

/-- Lists of plain values and lists of nodes agree: any of the former in a tree can be spelled out,
and a list of operands is as long as they are and has each of them as it would be alone. -/
theorem lists_agree (d : Dialect) :
    (∀ m n, Node.SpelledOut m n → m.wellFormed = true → n.statement d = m.statement d) ∧
      ∀ os : List Operand, (∀ o ∈ os, o.bound.wellFormed = true) →
        ∃ items, list os = ⟨.valueList items⟩ ∧ items.nodes.length = os.length ∧
          (list os).statement d =
            Piece.statement d (inParens (items.nodes.map (itemPieces d))) ∧
          ∀ (i : Nat) o, os[i]? = some o → ∃ n, items.nodes[i]? = some n ∧
            (list [o]).statement d = Piece.statement d (inParens [itemPieces d n]) := by
  refine ⟨fun m n h hm => h.statement_eq d hm, fun os h => ?_⟩
  obtain ⟨items, hlist, hitems⟩ := exists_list os
  refine ⟨items, hlist, by rw [hitems, List.length_map], ?_, ?_⟩
  · rw [statement_list d h, hitems, List.map_map]
    rfl
  · intro i o ho
    have hwell := h o (List.mem_of_getElem? ho)
    refine ⟨o.bound, by rw [hitems, List.getElem?_map, ho]; rfl, ?_⟩
    exact statement_list d (by simpa using hwell)

/-- One of two lists is spelled out, and a list has a list and a column in it. -/
theorem lists_agree_mssql :
    let pair (l : ListItems Node) : Node :=
      ⟨.and ⟨.valueList (.primitive [.int 1])⟩ ⟨.valueList l⟩⟩
    let vs : List Value := [.int 2, .null]
    let os := [value (.int 1), node (list [value (.int 2), value .null]), node (.column "x")]
    (Node.SpelledOut (pair (.primitive vs)) (pair (.expressions (vs.map .bound))) ∧
      (pair (.primitive vs)).wellFormed = true ∧
      (pair (.expressions (vs.map .bound))).statement .mssql =
        (pair (.primitive vs)).statement .mssql) ∧
    ((∀ o ∈ os, o.bound.wellFormed = true) ∧
      ∃ items, list os = ⟨.valueList items⟩ ∧ items.nodes.length = os.length ∧
        (list os).statement .mssql =
          Piece.statement .mssql (inParens (items.nodes.map (itemPieces .mssql))) ∧
        ∀ (i : Nat) o, os[i]? = some o → ∃ n, items.nodes[i]? = some n ∧
          (list [o]).statement .mssql = Piece.statement .mssql (inParens [itemPieces .mssql n])) := by
  intro pair vs os
  have hpair : Node.SpelledOut (pair (.primitive vs)) (pair (.expressions (vs.map .bound))) := by
    refine .node (.and (⟨.valueList (.primitive [.int 1])⟩, ⟨.valueList (.primitive [.int 1])⟩)
      (⟨.valueList (.primitive vs)⟩, ⟨.valueList (.expressions (vs.map .bound))⟩)) ?_
    intro c hc
    simp only [Shape.children, Shape.fields, List.flatMap_cons, List.flatMap_nil, Field.toList,
      List.append_nil, List.singleton_append, List.mem_cons, List.not_mem_nil, or_false] at hc
    obtain rfl | rfl := hc
    · exact .node (.valueList (.primitive [.int 1])) fun _ hc => absurd hc List.not_mem_nil
    · exact .list vs
  have hos : ∀ o ∈ os, o.bound.wellFormed = true := by
    intro o ho
    simp only [os, List.mem_cons, List.not_mem_nil, or_false] at ho
    obtain rfl | rfl | rfl := ho <;> rfl
  exact ⟨⟨hpair, rfl, (lists_agree .mssql).1 _ _ hpair rfl⟩, hos, (lists_agree .mssql).2 os hos⟩

end Operand

end SqlTree
