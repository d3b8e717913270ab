import SqlTree.Proofs.Render.Congruence
import SqlTree.Render.Compile
import Mathlib.Data.List.Forall2

/-!
# Bound values stay out of the text

Trees that differ in nothing but the contents of their bound values have the same text, and their
parameters come from the same places in the same order (`Node.render_sameButBound`).
-/

namespace SqlTree

namespace Node

/-- Where a bound value stands: the way down through the children, and the item there. -/
structure Place where
  path : List Nat
  item : Nat

/-- The bound values that a node holds itself. -/
def boundHere : Node → List Value
  | ⟨.value v false⟩ => [v]
  | ⟨.valueList (.primitive vs)⟩ => vs
  | _ => []

def below? (n : Node) : List Nat → Option Node
  | [] => some n
  | i :: path => n.shape.children[i]?.bind fun c => c.below? path

def boundAt? (n : Node) (p : Place) : Option Value :=
  (n.below? p.path).bind fun c => c.boundHere[p.item]?

/-- Trees that differ in nothing but the contents of bound values. -/
inductive SameButBound : Node → Node → Prop
  | value (v w : Value) : SameButBound ⟨.value v false⟩ ⟨.value w false⟩
  | values (vs ws : List Value) (h : vs.length = ws.length) :
    SameButBound ⟨.valueList (.primitive vs)⟩ ⟨.valueList (.primitive ws)⟩
  | node (u : Shape (Node × Node)) (h : ∀ c ∈ u.children, SameButBound c.1 c.2) :
    SameButBound ⟨u.map Prod.fst⟩ ⟨u.map Prod.snd⟩

/-- Pieces of two trees that are one piece, or parameters from one place. -/
inductive SamePiece (m n : Node) : Piece → Piece → Prop
  | text (s : String) : SamePiece m n (.text s) (.text s)
  | verbatim (s : String) : SamePiece m n (.verbatim s) (.verbatim s)
  | name (s : String) : SamePiece m n (.name s) (.name s)
  | literal (v : Value) : SamePiece m n (.literal v) (.literal v)
  | refused (f : Feature) : SamePiece m n (.refused f) (.refused f)
  | parameter {v w : Value} (p : Place) (hv : m.boundAt? p = some v) (hw : n.boundAt? p = some w) :
    SamePiece m n (.parameter v) (.parameter w)

abbrev SamePieces (m n : Node) : List Piece → List Piece → Prop := List.Forall₂ (SamePiece m n)

theorem samePieces_congruence (d : Dialect) (m n : Node) :
    Layout.Congruence d d (SamePieces m n) :=
  .ofWords .nil (fun h h' => List.rel_append h h') (fun s => .cons (.text s) .nil)
    (fun s => .cons (.verbatim s) .nil) (fun f => .cons (.refused f) .nil)

theorem boundAt?_below {s : Shape Node} {i : Nat} {c : Node} (hi : s.children[i]? = some c)
    (p : Place) : boundAt? ⟨s⟩ ⟨i :: p.path, p.item⟩ = c.boundAt? p := by
  simp [boundAt?, below?, shape, hi]

/-- Places of a child are places of the node. -/
theorem SamePieces.ofChild {u : Shape (Node × Node)} {c : Node × Node} (hc : c ∈ u.children)
    {ps qs : List Piece} (h : SamePieces c.1 c.2 ps qs) :
    SamePieces ⟨u.map Prod.fst⟩ ⟨u.map Prod.snd⟩ ps qs := by
  obtain ⟨i, hi⟩ := List.mem_iff_getElem?.mp hc
  refine h.imp fun p q hpq => ?_
  cases hpq with
  | text s => exact .text s
  | verbatim s => exact .verbatim s
  | name s => exact .name s
  | literal v => exact .literal v
  | refused f => exact .refused f
  | parameter p hv hw =>
    refine .parameter ⟨i :: p.path, p.item⟩ ?_ ?_
    · rw [boundAt?_below (c := c.1) (by simp [hi]), hv]
    · rw [boundAt?_below (c := c.2) (by simp [hi]), hw]

theorem samePieces_parameters {m n : Node} (vs ws : List Value) (h : vs.length = ws.length)
    (offset : Nat) (hv : ∀ i, m.boundAt? ⟨[], offset + i⟩ = vs[i]?)
    (hw : ∀ i, n.boundAt? ⟨[], offset + i⟩ = ws[i]?) :
    SamePieces m n (Layout.parameters vs) (Layout.parameters ws) := by
  induction vs generalizing ws offset with
  | nil =>
    cases ws with
    | nil => exact .nil
    | cons w ws => cases h
  | cons v vs ih =>
    cases ws with
    | nil => cases h
    | cons w ws =>
      have hhead : SamePiece m n (.parameter v) (.parameter w) :=
        .parameter ⟨[], offset⟩ (hv 0) (hw 0)
      cases vs with
      | nil =>
        cases ws with
        | nil => exact .cons hhead .nil
        | cons w' ws => cases h
      | cons v' vs =>
        cases ws with
        | nil => cases h
        | cons w' ws =>
          refine .cons hhead (.cons (.text _) ?_)
          apply ih _ (Nat.succ.inj h) (offset + 1)
          · intro i
            rw [Nat.add_right_comm]
            exact hv (i + 1)
          · intro i
            rw [Nat.add_right_comm]
            exact hw (i + 1)

theorem samePieces_valueList {vs ws : List Value} (h : vs.length = ws.length) :
    SamePieces ⟨.valueList (.primitive vs)⟩ ⟨.valueList (.primitive ws)⟩
      (Layout.sql "(" ++ Layout.parameters vs ++ Layout.sql ")")
      (Layout.sql "(" ++ Layout.parameters ws ++ Layout.sql ")") := by
  have hc := samePieces_congruence default ⟨.valueList (.primitive vs)⟩ ⟨.valueList (.primitive ws)⟩
  refine hc.append (hc.append (hc.sql "(") (samePieces_parameters vs ws h 0 ?_ ?_)) (hc.sql ")")
  · intro i
    simp [boundAt?, below?, boundHere]
  · intro i
    simp [boundAt?, below?, boundHere]

theorem SameButBound.alike {m n : Node} (h : SameButBound m n) : Layout.Alike m n := by
  cases h with
  | value v w => exact ⟨rfl, rfl, rfl⟩
  | values vs ws h => exact ⟨rfl, rfl, rfl⟩
  | node u h => exact .map u _ _

theorem SameButBound.pieces {m n : Node} (h : SameButBound m n) (d : Dialect)
    (parent : Option Kind) : SamePieces m n (m.piecesIn d parent) (n.piecesIn d parent) := by
  induction h generalizing parent with
  | value v w => exact .cons (.parameter ⟨[], 0⟩ rfl rfl) .nil
  | values vs ws h => exact samePieces_valueList h
  | node u h ih =>
    have hc := samePieces_congruence d ⟨u.map Prod.fst⟩ ⟨u.map Prod.snd⟩
    rw [piecesIn_mk, piecesIn_mk, Shape.map_map, Shape.map_map, Shape.kind_map, Shape.kind_map]
    apply hc.pieces
    · exact fun c hc => SamePieces.ofChild hc (ih c hc _)
    · exact fun c hc => (h c hc).alike
    · intro hu
      obtain ⟨name, rfl⟩ | ⟨v, immediate, rfl⟩ | ⟨vs, rfl⟩ := Layout.eq_of_isLeaf hu
      · exact .cons (.name name) .nil
      · cases immediate with
        | true => exact .cons (.literal v) .nil
        | false => exact .cons (.parameter ⟨[], 0⟩ rfl rfl) .nil
      · exact samePieces_valueList rfl
    · intro j hj
      have hj := Shape.mem_children_of_mem_slotted hj
      rw [← List.drop_one, ← List.drop_one]
      exact List.forall₂_drop 1 (SamePieces.ofChild hj (ih j hj _))

namespace SamePieces

variable {m n : Node} {ps qs : List Piece}

theorem refusal?_eq (h : SamePieces m n ps qs) : Piece.refusal? ps = Piece.refusal? qs := by
  induction h with
  | nil => rfl
  | cons hpq _ ih => cases hpq <;> first | exact ih | rfl

theorem texts_eq (h : SamePieces m n ps qs) (d : Dialect) (k : Nat) :
    Piece.texts d k ps = Piece.texts d k qs := by
  induction h generalizing k with
  | nil => rfl
  | cons hpq _ ih => cases hpq <;> simp only [Piece.texts, ih]

theorem parameters (h : SamePieces m n ps qs) :
    ∃ places : List Place, (Piece.parameters ps).map some = places.map m.boundAt? ∧
      (Piece.parameters qs).map some = places.map n.boundAt? := by
  induction h with
  | nil => exact ⟨[], rfl, rfl⟩
  | cons hpq _ ih =>
    obtain ⟨places, hv, hw⟩ := ih
    cases hpq with
    | parameter p hvp hwp =>
      exact ⟨p :: places, by simp [Piece.parameters, hv, hvp], by simp [Piece.parameters, hw, hwp]⟩
    | _ => exact ⟨places, hv, hw⟩

end SamePieces

/-- Trees that differ in nothing but the contents of bound values fail alike, or have one text and
their parameters from the same places. -/
theorem render_sameButBound (d : Dialect) {m n : Node} (h : SameButBound m n) :
    (∃ e, m.render d = .error e ∧ n.render d = .error e) ∨
      ∃ (sql : String) (vs ws : List Value) (places : List Place),
        m.render d = .ok (sql, vs) ∧ n.render d = .ok (sql, ws) ∧ vs.length = ws.length ∧
          vs.map some = places.map m.boundAt? ∧ ws.map some = places.map n.boundAt? := by
  have hpq : SamePieces m n (m.pieces d) (n.pieces d) := h.pieces d none
  cases hr : Piece.refusal? (m.pieces d) with
  | some f =>
    exact .inl ⟨_, render_of_refusal hr, render_of_refusal (hpq.refusal?_eq ▸ hr)⟩
  | none =>
    obtain ⟨places, hv, hw⟩ := hpq.parameters
    have hsql : Piece.sql d (m.pieces d) = Piece.sql d (n.pieces d) := by
      rw [Piece.sql, hpq.texts_eq, Piece.sql]
    refine .inr ⟨_, _, _, places, render_of_no_refusal hr, ?_, ?_, hv, hw⟩
    · rw [hsql]
      exact render_of_no_refusal (hpq.refusal?_eq ▸ hr)
    · have hv := congrArg List.length hv
      have hw := congrArg List.length hw
      simp only [List.length_map] at hv hw
      rw [hv, hw]

/-- A bound number beside a list of two. -/
theorem render_sameButBound_postgres :
    let pair (v : Value) (vs : List Value) : Node :=
      ⟨.and ⟨.value v false⟩ ⟨.valueList (.primitive vs)⟩⟩
    SameButBound (pair (.int 1) [.int 2, .null]) (pair .null [.bool true, .int 3]) ∧
      ∃ (sql : String) (vs ws : List Value) (places : List Place),
        (pair (.int 1) [.int 2, .null]).render .postgres = .ok (sql, vs) ∧
          (pair .null [.bool true, .int 3]).render .postgres = .ok (sql, ws) ∧
            vs.length = ws.length ∧
              vs.map some = places.map (pair (.int 1) [.int 2, .null]).boundAt? ∧
                ws.map some = places.map (pair .null [.bool true, .int 3]).boundAt? := by
  intro pair
  have h : SameButBound (pair (.int 1) [.int 2, .null]) (pair .null [.bool true, .int 3]) := by
    refine .node (.and (⟨.value (.int 1) false⟩, ⟨.value .null false⟩)
      (⟨.valueList (.primitive [.int 2, .null])⟩,
        ⟨.valueList (.primitive [.bool true, .int 3])⟩)) ?_
    intro c hc
    simp only [Shape.children, Shape.fields, List.flatMap_cons, List.flatMap_nil, Field.toList,
      List.append_nil, List.singleton_append, List.mem_cons, List.not_mem_nil, or_false] at hc
    obtain rfl | rfl := hc
    · exact .value _ _
    · exact .values _ _ rfl
  refine ⟨h, ?_⟩
  obtain ⟨e, he, -⟩ | hok := render_sameButBound .postgres h
  · cases he
  · exact hok

end Node

end SqlTree
