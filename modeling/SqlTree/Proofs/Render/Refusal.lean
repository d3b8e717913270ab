import SqlTree.Proofs.Render.Dialects

/-!
# The first refusal

A statement fails for the first of its pieces that the dialect cannot express.  Words of a layout
are never refused but the two that say so, so trees whose children are refused alike are refused
alike (`Node.RefusedAlike.map`), and a dialect that can express both refuses no tree.
-/

namespace SqlTree

namespace Piece

@[simp] theorem refusal?_append (ps qs : List Piece) :
    refusal? (ps ++ qs) = (refusal? ps).or (refusal? qs) := by
  induction ps with
  | nil => rfl
  | cons p ps ih =>
    cases p with
    | refused f => rfl
    | _ => exact ih

@[simp] theorem refusal?_text (s : String) (ps : List Piece) :
    refusal? (.text s :: ps) = refusal? ps := rfl

@[simp] theorem refusal?_sql (s : String) : refusal? (Layout.sql s) = none := rfl

@[simp] theorem refusal?_enclosed (k : Kind) (parent : Option Kind) (ps : List Piece) :
    refusal? (Layout.enclosed k parent ps) = refusal? ps := by
  unfold Layout.enclosed
  split <;> simp

theorem refusal?_parameters (vs : List Value) : refusal? (Layout.parameters vs) = none := by
  induction vs with
  | nil => rfl
  | cons v vs ih =>
    cases vs with
    | nil => rfl
    | cons w ws => exact ih

/-- Clauses are refused for the first of them that is. -/
theorem refusal?_clauses (ps : List Layout.Part) :
    refusal? (Layout.clauses ps) = ps.findSome? fun p => refusal? p.2 := by
  induction ps with
  | nil => rfl
  | cons p ps ih =>
    have hcons : Layout.clauses (p :: ps) = (.text " " :: p.2) ++ Layout.clauses ps := rfl
    rw [hcons, refusal?_append, refusal?_text, ih, List.findSome?_cons]
    cases refusal? p.2 <;> rfl

/-- The parent decides about parentheses only. -/
theorem refusal?_pieces_parent (d : Dialect) (parent : Option Kind) (s : Shape Layout.Part) :
    refusal? (Layout.pieces d parent s) = refusal? (Layout.pieces d none s) := by
  cases s with
  | selectQuery p => simp only [Layout.pieces, refusal?_enclosed]
  | insertQuery p => simp only [Layout.pieces, refusal?_enclosed]
  | updateQuery p => simp only [Layout.pieces, refusal?_enclosed]
  | deleteQuery p => simp only [Layout.pieces, refusal?_enclosed]
  | mergeQuery p => simp only [Layout.pieces, refusal?_enclosed]
  | valueList items => cases items <;> rfl
  | _ => rfl

theorem refusal_congruence (d : Dialect) :
    Layout.Congruence d d fun ps qs => refusal? ps = refusal? qs :=
  .ofWords rfl (fun h h' => by rw [refusal?_append, refusal?_append, h, h']) (fun _ => rfl)
    (fun _ => rfl) fun _ => rfl

/-- A dialect with `returning` can express everything. -/
theorem unrefusing_congruence {d : Dialect} (h : d.supportsReturning = true) :
    Layout.Congruence d d fun ps _ => refusal? ps = none where
  nil := rfl
  append h h' := by rw [refusal?_append, h, h', Option.none_or]
  text _ := rfl
  verbatim _ := rfl
  defaultValue := rfl
  autoIncrement := rfl
  rows := by
    unfold Layout.sqlIf
    split <;> rfl
  returning := by
    rw [if_pos h]
    rfl
  insertVerb b c := by
    cases d with
    | postgres => cases b <;> cases c <;> rfl
    | sqlite => cases b <;> cases c <;> rfl
    | _ => cases h
  ignoresAtEnd b c s := by
    unfold Layout.sqlIf
    split <;> rfl

end Piece

namespace Layout.Alike

variable {l m n : Node}

theorem symm (h : Alike m n) : Alike n m :=
  ⟨h.modifierPriority.symm, h.isNegation.symm, h.hasNoItems.symm⟩

theorem trans (h : Alike l m) (h' : Alike m n) : Alike l n :=
  ⟨h.modifierPriority.trans h'.modifierPriority, h.isNegation.trans h'.isNegation,
    h.hasNoItems.trans h'.hasNoItems⟩

end Layout.Alike

namespace Node

/-- What a dialect refuses first in a tree as it is. -/
def refusal? (d : Dialect) (n : Node) : Option Feature := Piece.refusal? (n.pieces d)

theorem refusal?_piecesIn (d : Dialect) (n : Node) (parent : Option Kind) :
    Piece.refusal? (n.piecesIn d parent) = n.refusal? d := by
  obtain ⟨s⟩ := n
  rw [refusal?, pieces, piecesIn_mk, piecesIn_mk, Piece.refusal?_pieces_parent]

theorem refusal?_of_isLeaf (d : Dialect) {s : Shape Node} (h : Layout.isLeaf s = true) :
    refusal? d ⟨s⟩ = none := by
  obtain ⟨name, rfl⟩ | ⟨v, immediate, rfl⟩ | ⟨vs, rfl⟩ := Layout.eq_of_isLeaf h
  · rfl
  · cases immediate <;> rfl
  · show Piece.refusal? (Layout.sql "(" ++ Layout.parameters vs ++ Layout.sql ")") = none
    simp only [Piece.refusal?_append, Piece.refusal?_sql, Piece.refusal?_parameters, Option.or_none]

theorem refusal?_tail_of_join (d : Dialect) {n : Node} (h : n.kind = .join)
    (parent : Option Kind) : Piece.refusal? (n.piecesIn d parent).tail = n.refusal? d := by
  rw [← refusal?_piecesIn d n parent]
  obtain ⟨s⟩ := n
  cases s with
  | join type table condition =>
    rw [piecesIn_mk, Shape.map_eq_each]
    rfl
  | _ => cases h

/-- A dialect with `returning` refuses no tree. -/
theorem refusal?_eq_none {d : Dialect} (h : d.supportsReturning = true) {n : Node}
    (hn : n.wellFormed = true) : n.refusal? d = none := by
  induction n using childrenInduction with
  | h s ih =>
    have hchild : ∀ c ∈ s.children, ∀ parent, Piece.refusal? (c.piecesIn d parent) = none := by
      intro c hc parent
      rw [refusal?_piecesIn]
      exact ih c hc (wellFormed_of_mem_children hn hc)
    have hleaf : Layout.isLeaf s = true → Piece.refusal? (pieces d ⟨s⟩) = none :=
      refusal?_of_isLeaf d
    rw [refusal?, pieces, piecesIn_mk]
    rw [pieces, piecesIn_mk] at hleaf
    apply (Piece.unrefusing_congruence h).pieces (G := fun c => (c, []))
    · exact fun c hc => hchild c hc _
    · exact fun c _ => .refl c
    · exact hleaf
    · intro j hj
      rw [refusal?_tail_of_join d (kind_of_usingJoin hn hj), ← refusal?_piecesIn d j none]
      exact hchild j (Shape.mem_children_of_mem_slotted hj) none

/-- Trees that no layout tells apart and that are refused for the same. -/
structure RefusedAlike (d : Dialect) (m n : Node) : Prop where
  kind : m.kind = n.kind
  alike : Layout.Alike m n
  refusal : m.refusal? d = n.refusal? d

namespace RefusedAlike

variable {d : Dialect} {l m n : Node}

@[refl] theorem refl (n : Node) : RefusedAlike d n n := ⟨rfl, .refl n, rfl⟩

@[symm] theorem symm (h : RefusedAlike d m n) : RefusedAlike d n m :=
  ⟨h.kind.symm, h.alike.symm, h.refusal.symm⟩

@[trans] theorem trans (h : RefusedAlike d l m) (h' : RefusedAlike d m n) : RefusedAlike d l n :=
  ⟨h.kind.trans h'.kind, h.alike.trans h'.alike, h.refusal.trans h'.refusal⟩

variable {α : Type} {f g : α → Node} {s : Shape α}

/-- Trees of one shape are refused alike if their children are. -/
theorem map (h : ∀ a ∈ s.children, RefusedAlike d (f a) (g a))
    (hj : ∀ a, (Slot.only .join, a) ∈ s.slotted → (f a).kind = .join) :
    RefusedAlike d ⟨s.map f⟩ ⟨s.map g⟩ where
  kind := (Shape.kind_map f s).trans (Shape.kind_map g s).symm
  alike := .map s f g
  refusal := by
    have hc := Piece.refusal_congruence d
    rw [refusal?, refusal?, pieces, pieces, piecesIn_mk, piecesIn_mk, Shape.map_map,
      Shape.map_map, Shape.kind_map, Shape.kind_map]
    apply hc.pieces
    · intro a ha
      refine (refusal?_piecesIn d _ _).trans ?_
      exact (h a ha).refusal.trans (refusal?_piecesIn d _ _).symm
    · exact fun a ha => (h a ha).alike
    · intro hs
      rw [Shape.map_eq_each, Shape.map_eq_each]
      obtain ⟨name, rfl⟩ | ⟨v, immediate, rfl⟩ | ⟨vs, rfl⟩ := Layout.eq_of_isLeaf hs
      all_goals rfl
    · intro a ha
      have hk := hj a ha
      have hab := h a (Shape.mem_children_of_mem_slotted ha)
      refine (refusal?_tail_of_join d hk _).trans ?_
      exact hab.refusal.trans (refusal?_tail_of_join d (hab.kind.symm.trans hk) _).symm

end RefusedAlike

end Node

end SqlTree
