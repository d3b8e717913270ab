import SqlTree.Proofs.Pass.Settled
import SqlTree.Proofs.Render.Dialects
import SqlTree.Proofs.Render.Quoting

/-!
# Selects inside other nodes

Where a select stands in a tree, the text of the tree is a template with the text of the select in
its gap.  Every such gap is between two parentheses, but for the branches of a case: what is exempt
for the actions of a merge is exempt there too (`Node.compile_select_enclosed_iff`).
-/

namespace SqlTree

/-- Pieces with gaps, in which the pieces of one node go. -/
abbrev Template := List (Option Piece)

namespace Template

def fill (T : Template) (ps : List Piece) : List Piece :=
  T.flatMap fun
    | some p => [p]
    | none => ps

/-- Pieces without a gap. -/
def solid (ps : List Piece) : Template := ps.map some

@[simp] theorem fill_append (T U : Template) (ps : List Piece) :
    fill (T ++ U) ps = fill T ps ++ fill U ps := List.flatMap_append

@[simp] theorem fill_solid (qs ps : List Piece) : fill (solid qs) ps = qs := by
  induction qs with
  | nil => rfl
  | cons q qs ih => exact congrArg (q :: ·) ih

theorem solid_ne_gap (ps : List Piece) {before after : Template} :
    solid ps ≠ before ++ none :: after := by
  intro h
  have hmem : none ∈ solid ps := by simp [h]
  simp [solid] at hmem

/-- Nothing but pieces in `L` stands right before a gap. -/
def Follows (L : Piece → Prop) (T : Template) : Prop :=
  ∀ before after, T = before ++ none :: after → ∃ b p, before = b ++ [some p] ∧ L p

/-- Nothing but pieces in `R` stands right after a gap. -/
def Precedes (R : Piece → Prop) (T : Template) : Prop :=
  ∀ before after, T = before ++ none :: after → ∃ p a, after = some p :: a ∧ R p

/-- A gap between an opening parenthesis and a closing one. -/
def Enclosed (before after : Template) : Prop :=
  (∃ b, before = b ++ [some (.text "(")]) ∧ ∃ a, after = some (.text ")") :: a

variable {L R : Piece → Prop} {T U : Template}

theorem eq_of_one_gap (ps qs : List Piece) {before after : Template}
    (heq : solid ps ++ none :: solid qs = before ++ none :: after) :
    before = solid ps ∧ after = solid qs := by
  obtain ⟨as, rfl, h⟩ | ⟨bs, hps, h⟩ := List.append_eq_append_iff.mp heq
  · cases as with
    | nil => exact ⟨List.append_nil _, (List.cons_eq_cons.mp h).2.symm⟩
    | cons o as => exact absurd (List.cons_eq_cons.mp h).2 (solid_ne_gap _)
  · cases bs with
    | nil => exact ⟨by simpa using hps.symm, (List.cons_eq_cons.mp h).2⟩
    | cons o bs =>
      obtain ⟨rfl, -⟩ := List.cons_eq_cons.mp h
      exact absurd hps (solid_ne_gap _)

theorem Follows.append (hT : Follows L T) (hU : Follows L U) : Follows L (T ++ U) := by
  intro before after heq
  obtain ⟨as, rfl, h⟩ | ⟨bs, rfl, h⟩ := List.append_eq_append_iff.mp heq
  · obtain ⟨b, p, rfl, hp⟩ := hU _ _ h
    exact ⟨T ++ b, p, (List.append_assoc ..).symm, hp⟩
  · cases bs with
    | nil =>
      obtain ⟨b, p, hb, hp⟩ := hU [] after h.symm
      simp at hb
    | cons o bs =>
      obtain ⟨rfl, rfl⟩ := List.cons_eq_cons.mp h
      exact hT _ _ rfl

theorem Precedes.append (hT : Precedes R T) (hU : Precedes R U) : Precedes R (T ++ U) := by
  intro before after heq
  obtain ⟨as, rfl, h⟩ | ⟨bs, rfl, h⟩ := List.append_eq_append_iff.mp heq
  · exact hU _ _ h
  · cases bs with
    | nil => exact hU [] after h.symm
    | cons o bs =>
      obtain ⟨rfl, rfl⟩ := List.cons_eq_cons.mp h
      obtain ⟨p, a, rfl, hp⟩ := hT _ _ rfl
      exact ⟨p, a ++ U, rfl, hp⟩

/-- Conditions on the neighbours of gaps: pieces without a gap meet them, they go through
concatenation, and the word that opens a join is nobody's neighbour. -/
structure Local (P : Template → Prop) : Prop where
  solid : ∀ ps, P (solid ps)
  append : ∀ {T U}, P T → P U → P (T ++ U)
  join : ∀ {type : JoinType} {T}, P (some (.text (type.keyword ++ " ")) :: T) → P T

theorem local_follows (hL : ∀ type : JoinType, ¬ L (.text (type.keyword ++ " "))) :
    Local (Follows L) where
  solid _ _ _ h := absurd h (solid_ne_gap _)
  append := .append
  join {type T} h before after hT := by
    obtain ⟨b, p, hb, hp⟩ :=
      h (some (.text (type.keyword ++ " ")) :: before) after (by rw [hT]; rfl)
    cases b with
    | nil =>
      obtain ⟨hb, -⟩ := List.cons_eq_cons.mp hb
      rw [← Option.some.inj hb] at hp
      exact absurd hp (hL type)
    | cons o b => exact ⟨b, p, (List.cons_eq_cons.mp hb).2, hp⟩

theorem local_precedes : Local (Precedes R) where
  solid _ _ _ h := absurd h (solid_ne_gap _)
  append := .append
  join {type T} h before after hT :=
    h (some (.text (type.keyword ++ " ")) :: before) after (by rw [hT]; rfl)

theorem Local.and {P Q : Template → Prop} (hP : Local P) (hQ : Local Q) :
    Local fun T => P T ∧ Q T where
  solid ps := ⟨hP.solid ps, hQ.solid ps⟩
  append h h' := ⟨hP.append h.1 h'.1, hQ.append h.2 h'.2⟩
  join h := ⟨hP.join h.1, hQ.join h.2⟩

/-- The template of a child of a node of kind `k`: `T`, or the pieces of a child that is there. -/
def ofChild (d : Dialect) (k : Kind) (T : Template) : Option Node → Template
  | none => T
  | some n => solid (n.piecesIn d (some k))

section OfChild

variable (d : Dialect) (k : Kind) (o : Option Node)

@[simp] theorem fill_ofChild (ps : List Piece) :
    (ofChild d k T o).fill ps = o.elim (T.fill ps) fun n => n.piecesIn d (some k) := by
  cases o with
  | none => rfl
  | some n => exact fill_solid _ ps

theorem Local.ofChild {P : Template → Prop} (hP : Local P) (hT : P T) : P (ofChild d k T o) := by
  cases o with
  | none => exact hT
  | some n => exact hP.solid _

theorem follows_ofChild {p : Piece} (hp : L p) : Follows L (some p :: ofChild d k [none] o) := by
  intro before after h
  cases o with
  | none =>
    obtain ⟨rfl, -⟩ := eq_of_one_gap [p] [] h
    exact ⟨[], p, rfl, hp⟩
  | some n => exact absurd h (solid_ne_gap (p :: n.piecesIn d (some k)))

end OfChild

/-- Opens with the word of a join. -/
def OpensJoin (T : Template) : Prop :=
  ∃ (type : JoinType) (U : Template), T = some (.text (type.keyword ++ " ")) :: U

/-- The function fills a template that meets the condition, one for a node of kind `k`. -/
def Frames (P : Template → Prop) (k : Kind) (g : List Piece → List Piece) : Prop :=
  ∃ T : Template, (∀ ps, g ps = T.fill ps) ∧ P T ∧ (k = .join → T.OpensJoin)

/-- A template as pieces.  Names are marked, to tell them from gaps: layouts write no names of their
own, so the marks are the children's. -/
def mark : Option Piece → Piece
  | none => .name ""
  | some (.name s) => .name ("_" ++ s)
  | some p => p

def unmark : Piece → Option Piece
  | .name s =>
    match s.toList with
    | [] => none
    | _ :: cs => some (.name (.ofList cs))
  | p => some p

theorem unmark_mark (o : Option Piece) : unmark (mark o) = o := by
  cases o with
  | none => rfl
  | some p =>
    cases p with
    | name s => simp [mark, unmark, String.toList_append]
    | _ => rfl

def marked (T : Template) : List Piece := T.map mark

def unmarked (ps : List Piece) : Template := ps.map unmark

@[simp] theorem unmarked_marked (T : Template) : unmarked (marked T) = T := by
  simp [unmarked, marked, unmark_mark, Function.comp_def]

theorem unmarked_tail_marked (T : Template) : unmarked (marked T).tail = T.tail := by
  rw [unmarked, List.map_tail]
  exact congrArg List.tail (unmarked_marked T)

theorem unmarked_append (ps qs : List Piece) :
    unmarked (ps ++ qs) = unmarked ps ++ unmarked qs := List.map_append

/-- The pieces of a filled template are those of the template, with the marks read. -/
theorem filled_congruence {P : Template → Prop} (hP : Local P) (d : Dialect) (ps : List Piece) :
    Layout.Congruence d d fun xs ys => ys = fill (unmarked xs) ps ∧ P (unmarked xs) := by
  have hsolid : ∀ p : Piece, unmark p = some p →
      [p] = fill (unmarked [p]) ps ∧ P (unmarked [p]) := by
    intro p hp
    have hunmarked : unmarked [p] = solid [p] := congrArg (fun o => [o]) hp
    rw [hunmarked, fill_solid]
    exact ⟨rfl, hP.solid [p]⟩
  refine .ofWords ⟨rfl, hP.solid []⟩ ?_ (fun s => hsolid _ rfl) (fun s => hsolid _ rfl)
    fun f => hsolid _ rfl
  rintro xs ys xs' ys' ⟨rfl, hxs⟩ ⟨rfl, hxs'⟩
  rw [unmarked_append, fill_append]
  exact ⟨rfl, hP.append hxs hxs'⟩

end Template

namespace Layout

/-- The pieces of a form below `parent`, where `none` stands for the child `c` and its pieces are
`ps`. -/
def around (d : Dialect) (parent : Option Kind) (t : Shape (Option Node)) (c : Node)
    (ps : List Piece) : List Piece :=
  pieces d parent <| t.map fun o => (o.getD c, o.elim ps fun n => n.piecesIn d (some t.kind))

/-- The pieces of a form as a template, of the template of one child. -/
def templateAround (d : Dialect) (parent : Option Kind) (t : Shape (Option Node)) (c : Node)
    (T : Template) : Template :=
  Template.unmarked <| pieces d parent <|
    t.map fun o => (o.getD c, (Template.ofChild d t.kind T o).marked)

section Around

variable {P : Template → Prop} (hP : Template.Local P) (d : Dialect) (parent : Option Kind)
  {t : Shape (Option Node)} {c : Node}
include hP

/-- A leaf has no child, so there is nothing to fill. -/
theorem frames_around_leaf (hleaf : isLeaf t = true) (g : List Piece → List Piece) :
    Template.Frames P t.kind fun ps => around d parent t c (g ps) := by
  refine ⟨Template.solid (around d parent t c []), fun ps => ?_, hP.solid _, ?_⟩
  · simp only [Template.fill_solid, around]
    congr 1
    refine t.map_congr fun o ho => ?_
    obtain ⟨name, rfl⟩ | ⟨v, immediate, rfl⟩ | ⟨vs, rfl⟩ := eq_of_isLeaf hleaf <;> cases ho
  · obtain ⟨name, rfl⟩ | ⟨v, immediate, rfl⟩ | ⟨vs, rfl⟩ := eq_of_isLeaf hleaf <;>
      exact fun h => nomatch h

theorem around_fill (hleaf : isLeaf t = false)
    (hw : Node.wellFormed ⟨t.map fun o => o.getD c⟩ = true) {T : Template} (hT : P T)
    (hjoin : c.kind = .join → T.OpensJoin) (ps : List Piece) :
    around d parent t c (T.fill ps) = (templateAround d parent t c T).fill ps ∧
      P (templateAround d parent t c T) := by
  refine (Template.filled_congruence hP d ps).pieces t parent ?_ (fun o _ => .refl _)
    (fun h => nomatch hleaf.symm.trans h) ?_
  · intro o _
    rw [Template.unmarked_marked, Template.fill_ofChild]
    exact ⟨rfl, hP.ofChild d t.kind o hT⟩
  · -- Of a join that a merge writes, the word that opens it is left out.
    intro o ho
    have hslot : (Slot.only .join, o.getD c) ∈ (t.map fun o => o.getD c).slotted := by
      rw [Shape.slotted_map]
      exact List.mem_map_of_mem ho
    have hk := Node.kind_of_usingJoin hw hslot
    rw [Template.unmarked_tail_marked]
    cases o with
    | none =>
      obtain ⟨type, U, rfl⟩ := hjoin hk
      exact ⟨rfl, hP.join hT⟩
    | some n =>
      have hsolid : (Template.ofChild d t.kind T (some n)).tail =
          Template.solid (n.piecesIn d (some t.kind)).tail := List.map_tail.symm
      rw [hsolid, Template.fill_solid]
      exact ⟨rfl, hP.solid _⟩

/-- Around a template stands a template that meets the same conditions. -/
theorem frames_around (hw : Node.wellFormed ⟨t.map fun o => o.getD c⟩ = true)
    {g : List Piece → List Piece} (hg : Template.Frames P c.kind g) :
    Template.Frames P t.kind fun ps => around d parent t c (g ps) := by
  by_cases hleaf : isLeaf t = true
  · exact frames_around_leaf hP d parent hleaf g
  obtain ⟨T, hgT, hT, hjoin⟩ := hg
  have hfill := around_fill hP d parent (Bool.eq_false_iff.mpr hleaf) hw hT hjoin
  refine ⟨_, fun ps => ?_, (hfill []).2, fun hk => ?_⟩
  · exact (congrArg _ (hgT ps)).trans (hfill ps).1
  · cases t with
    | join type table condition =>
      rw [templateAround, Shape.map_eq_each]
      exact ⟨type, _, rfl⟩
    | _ => cases hk

end Around

end Layout

namespace Node

/-- `Within d k m n parent f`: below `parent`, the tree `n` holds `m` as a child of a node of kind
`k`, and with the pieces `ps` for `m` the pieces of `n` are `f ps`. -/
inductive Within (d : Dialect) (k : Kind) (m : Node) :
    Node → Option Kind → (List Piece → List Piece) → Prop
  | child (t : Shape (Option Node)) (parent : Option Kind) (hk : t.kind = k)
    (hm : none ∈ t.children) :
    Within d k m ⟨t.map fun o => o.getD m⟩ parent (Layout.around d parent t m)
  | deeper (t : Shape (Option Node)) (parent : Option Kind) {c : Node}
    {f : List Piece → List Piece} (hc : none ∈ t.children) (h : Within d k m c (some t.kind) f) :
    Within d k m ⟨t.map fun o => o.getD c⟩ parent fun ps => Layout.around d parent t c (f ps)

section Within

variable {d : Dialect} {k : Kind} {m n : Node} {parent : Option Kind}
  {f : List Piece → List Piece}

theorem piecesIn_map_getD (d : Dialect) (t : Shape (Option Node)) (c : Node)
    (parent : Option Kind) :
    piecesIn d ⟨t.map fun o => o.getD c⟩ parent =
      Layout.around d parent t c (c.piecesIn d (some t.kind)) := by
  rw [piecesIn_mk, Shape.map_map, Shape.kind_map, Layout.around]
  congr 1
  refine t.map_congr fun o _ => ?_
  cases o <;> rfl

theorem Within.piecesIn_eq (h : Within d k m n parent f) :
    n.piecesIn d parent = f (m.piecesIn d (some k)) := by
  induction h with
  | child t parent hk hm => rw [piecesIn_map_getD, hk]
  | deeper t parent hc h ih => rw [piecesIn_map_getD, ih]

theorem wellFormed_of_map_getD {t : Shape (Option Node)} {c : Node}
    (hw : wellFormed ⟨t.map fun o => o.getD c⟩ = true) (hc : none ∈ t.children) :
    c.wellFormed = true := by
  apply wellFormed_of_mem_children hw
  rw [Shape.children_map]
  exact List.mem_map_of_mem (f := fun o : Option Node => o.getD c) hc

/-- What holds of the template right around a node holds of the template of the tree. -/
theorem Within.frames {P : Template → Prop} (hP : Template.Local P)
    (own : List Piece → List Piece)
    (hbase : ∀ (t : Shape (Option Node)) (parent : Option Kind), t.kind = k →
      wellFormed ⟨t.map fun o => o.getD m⟩ = true →
      Template.Frames P t.kind fun ps => Layout.around d parent t m (own ps))
    (h : Within d k m n parent f) (hw : n.wellFormed = true) :
    Template.Frames P n.kind fun ps => f (own ps) := by
  induction h with
  | child t parent hk hm =>
    rw [show kind ⟨t.map fun o => o.getD m⟩ = t.kind from Shape.kind_map _ t]
    exact hbase t parent hk hw
  | @deeper t parent c f hc h ih =>
    rw [show kind ⟨t.map fun o => o.getD c⟩ = t.kind from Shape.kind_map _ t]
    exact Layout.frames_around hP d parent hw (ih (wellFormed_of_map_getD hw hc))

end Within

end Node

namespace Template

/-- Nothing but an opening parenthesis stands right before a gap, and a closing one right after. -/
def InParens (T : Template) : Prop :=
  T.Follows (· = .text "(") ∧ T.Precedes (· = .text ")")

/-- A gap in two parentheses. -/
def inParens : Template := [some (.text "("), none, some (.text ")")]

theorem inParens_inParens : inParens.InParens := by
  constructor
  all_goals
    intro before after h
    obtain ⟨rfl, rfl⟩ := eq_of_one_gap [.text "("] [.text ")"] h
  · exact ⟨[], _, rfl, rfl⟩
  · exact ⟨_, [], rfl, rfl⟩

theorem local_inParens : Local InParens := by
  refine (local_follows fun type => ?_).and local_precedes
  cases type <;> simp [JoinType.keyword]

/-- The words before the children of a branch. -/
def IsBranchWord (p : Piece) : Prop := p = .text "when " ∨ p = .text " then "

theorem local_follows_branchWord : Local (Follows IsBranchWord) := by
  refine local_follows fun type => ?_
  cases type <;> simp [IsBranchWord, JoinType.keyword]

theorem InParens.enclosed {T : Template} (h : T.InParens) {before after : Template}
    (hT : T = before ++ none :: after) : Enclosed before after := by
  obtain ⟨b, _, rfl, rfl⟩ := h.1 _ _ hT
  obtain ⟨_, a, rfl, rfl⟩ := h.2 _ _ hT
  exact ⟨⟨b, rfl⟩, a, rfl⟩

theorem Follows.not_enclosed {T : Template} (h : T.Follows IsBranchWord) {before after : Template}
    (hT : T = before ++ none :: after) : ¬ Enclosed before after := by
  rintro ⟨⟨b, hb⟩, -⟩
  obtain ⟨b', p, rfl, hp⟩ := h _ _ hT
  obtain ⟨-, hp'⟩ := List.append_inj' hb rfl
  obtain rfl : p = .text "(" := by simpa using hp'
  simp [IsBranchWord] at hp

end Template

namespace Layout

section Select

variable (d : Dialect) (parent : Option Kind) {t : Shape (Option Node)} {m : Node}

/-- The parentheses of a select below most nodes are its own. -/
theorem frames_around_enclosed (hk : parenthesized .selectQuery (some t.kind) = true)
    (hw : Node.wellFormed ⟨t.map fun o => o.getD m⟩ = true) (hm : m.kind = .selectQuery) :
    Template.Frames Template.InParens t.kind fun ps =>
      around d parent t m (enclosed .selectQuery (some t.kind) ps) := by
  refine frames_around Template.local_inParens d parent hw
    ⟨.inParens, fun ps => ?_, Template.inParens_inParens, fun h => nomatch hm.symm.trans h⟩
  rw [enclosed, if_pos hk]
  simp [Template.fill, Template.inParens, sql]

/-- Below parentheses it needs none. -/
theorem frames_around_parens (hk : t.kind = .parens) :
    Template.Frames Template.InParens .parens (around d parent t m) := by
  cases t with
  | parens o =>
    cases o with
    | none =>
      refine ⟨.inParens, fun ps => ?_, Template.inParens_inParens, nofun⟩
      rw [around, Shape.map_eq_each]
      simp [Template.fill, Template.inParens, Shape.each, pieces, sql]
    | some n =>
      refine ⟨Template.solid (around d parent (.parens (some n)) m []), fun ps => ?_,
        Template.local_inParens.solid _, nofun⟩
      rw [Template.fill_solid, around, around, Shape.map_eq_each, Shape.map_eq_each]
      rfl
  | _ => cases hk

/-- In a branch there are none, only the word before it. -/
theorem frames_around_when (hk : t.kind = .when) :
    Template.Frames (Template.Follows Template.IsBranchWord) .when (around d parent t m) := by
  have hfill : ∀ o ps, (o.elim ps fun n : Node => n.piecesIn d (some .when)) =
      (Template.ofChild d .when [none] o).fill ps := by
    intro o ps
    rw [Template.fill_ofChild, Template.fill, List.flatMap_singleton]
  cases t with
  | when condition result =>
    have hwhen := Template.follows_ofChild (L := Template.IsBranchWord) d .when condition (.inl rfl)
    have hthen := fun o =>
      Template.follows_ofChild (L := Template.IsBranchWord) d .when o (.inr rfl)
    cases result with
    | none =>
      refine ⟨_, fun ps => ?_, hwhen, nofun⟩
      rw [around, Shape.map_eq_each]
      exact congrArg (.text "when " :: · ++ []) (hfill condition ps) |>.trans (List.append_nil _)
    | some result =>
      refine ⟨_, fun ps => ?_, hwhen.append (hthen result), nofun⟩
      rw [around, Shape.map_eq_each, Template.fill_append]
      exact congrArg₂ (fun xs ys => .text "when " :: xs ++ .text " then " :: ys)
        (hfill condition ps) (hfill result ps)
  | _ => cases hk

end Select

theorem parenthesized_select {k : Kind}
    (hk : k ∉ [Kind.raw, .setOperation, .insertQuery, .createTable, .createView])
    (hparens : k ≠ .parens) (hwhen : k ≠ .when) :
    parenthesized .selectQuery (some k) = true := by
  cases k <;> first | rfl | simp at hk hparens hwhen

end Layout

namespace Node

theorem piecesIn_select (d : Dialect) {m : Node} (hm : m.kind = .selectQuery)
    (parent : Option Kind) :
    m.piecesIn d parent = Layout.enclosed .selectQuery parent (m.pieces d) := by
  obtain ⟨s⟩ := m
  cases s with
  | selectQuery p =>
    rw [pieces, piecesIn_mk, piecesIn_mk, Shape.map_eq_each]
    rfl
  | _ => cases hm

section Select

variable {d : Dialect} {k : Kind} {m n : Node} {parent : Option Kind}
  {f : List Piece → List Piece} (hm : m.kind = .selectQuery)
  (h : Within d k m n parent f) (hw : n.wellFormed = true)
include hm h hw

/-- Other than in branches, a select has parentheses of its own or those around it. -/
theorem Within.frames_inParens
    (hk : k ∉ [Kind.raw, .setOperation, .insertQuery, .createTable, .createView])
    (hwhen : k ≠ .when) :
    Template.Frames Template.InParens n.kind fun ps =>
      f (Layout.enclosed .selectQuery (some k) ps) := by
  refine h.frames Template.local_inParens _ ?_ hw
  rintro t parent rfl hw
  by_cases hparens : t.kind = .parens
  · rw [hparens]
    exact Layout.frames_around_parens d parent hparens
  · exact Layout.frames_around_enclosed d parent
      (Layout.parenthesized_select hk hparens hwhen) hw hm

omit hm in
/-- In a branch a select follows the word before it. -/
theorem Within.frames_follows (hk : k = .when) :
    Template.Frames (Template.Follows Template.IsBranchWord) n.kind fun ps =>
      f (Layout.enclosed .selectQuery (some k) ps) := by
  refine h.frames Template.local_follows_branchWord _ ?_ hw
  rintro t parent rfl _
  rw [hk]
  exact Layout.frames_around_when d parent hk

end Select

/-- A select below another node that is no raw fragment, set operation, insert, table or view is
written between two parentheses, exactly if the node is no branch; and what stands between them has
its own parentheses in pairs. -/
theorem compile_select_enclosed_iff {d : Dialect} {q m : Node} {c : Compiled} {k : Kind}
    {f : List Piece → List Piece} (hw : q.wellFormed = true) (hc : q.compile d = .ok c)
    (h : Within d k m c.query none f) (hm : m.kind = .selectQuery)
    (hk : k ∉ [Kind.raw, .setOperation, .insertQuery, .createTable, .createView]) :
    ∃ T : Template, (∀ ps, f (Layout.enclosed .selectQuery (some k) ps) = T.fill ps) ∧
      c.sql = Piece.sql d (T.fill (m.pieces d)) ∧
        (∀ before after, T = before ++ none :: after →
          (Template.Enclosed before after ↔ k ≠ .when)) ∧
          (m.Every (Shape.Settled Harmless) → Piece.Balanced d (m.pieces d)) := by
  have hquery : c.query.wellFormed = true := by
    rw [eq_of_compile_eq_ok hw hc]
    exact wellFormed_rewrite_adapt d hw
  have hsql : ∀ T : Template, (∀ ps, f (Layout.enclosed .selectQuery (some k) ps) = T.fill ps) →
      c.sql = Piece.sql d (T.fill (m.pieces d)) := by
    intro T hT
    rw [← hT, ← piecesIn_select d hm, ← h.piecesIn_eq, eq_of_compile_eq_ok hw hc]
    rfl
  have hbalanced : m.Every (Shape.Settled Harmless) → Piece.Balanced d (m.pieces d) :=
    fun hn => balanced_piecesIn hn none
  by_cases hwhen : k = .when
  · obtain ⟨T, hfill, hT, -⟩ := h.frames_follows hquery hwhen
    refine ⟨T, hfill, hsql T hfill, fun before after hgap => ?_, hbalanced⟩
    exact ⟨fun henclosed => absurd henclosed (hT.not_enclosed hgap), fun hne => absurd hwhen hne⟩
  · obtain ⟨T, hfill, hT, -⟩ := h.frames_inParens hm hquery hk hwhen
    refine ⟨T, hfill, hsql T hfill, fun before after hgap => ?_, hbalanced⟩
    exact ⟨fun _ => hwhen, fun _ => hT.enclosed hgap⟩

/-- A select as an argument of a function that has a name. -/
theorem compile_select_enclosed_argument :
    let m : Node := ⟨.selectQuery { selections := [⟨.selection ⟨.column ⟨.identifier "b"⟩⟩⟩] }⟩
    let q : Node := ⟨.aliased ⟨.function "coalesce" [⟨.value (.int 1) false⟩, m]⟩ ⟨.identifier "x"⟩⟩
    ∃ (c : Compiled) (f : List Piece → List Piece) (T : Template),
      q.wellFormed = true ∧ q.compile .postgres = .ok c ∧
        Within .postgres .function m c.query none f ∧
        (∀ ps, f (Layout.enclosed .selectQuery (some .function) ps) = T.fill ps) ∧
        c.sql = Piece.sql .postgres (T.fill (m.pieces .postgres)) ∧
        ∀ before after, T = before ++ none :: after → Template.Enclosed before after := by
  intro m q
  have hw : q.wellFormed = true := by decide
  have hc : q.compile .postgres = .ok ⟨q, Piece.sql .postgres (q.pieces .postgres),
      Piece.parameters (q.pieces .postgres)⟩ := rfl
  have hin : Within .postgres .function m q none _ :=
    .deeper (.aliased none (some ⟨.identifier "x"⟩)) none List.mem_cons_self <|
      .child (.function "coalesce" [some ⟨.value (.int 1) false⟩, none]) _ rfl
        (List.mem_cons_of_mem _ List.mem_cons_self)
  obtain ⟨T, hT, hsql, hgap, -⟩ := compile_select_enclosed_iff hw hc hin rfl (by decide)
  exact ⟨_, _, T, hw, hc, hin, hT, hsql, fun before after h =>
    (hgap before after h).mpr (by decide)⟩

/-- A select as the result of a branch follows its word, with no parenthesis in between. -/
theorem compile_select_in_branch :
    let m : Node := ⟨.selectQuery { selections := [⟨.selection ⟨.column ⟨.identifier "b"⟩⟩⟩] }⟩
    let q : Node := ⟨.caseExpr none [⟨.when ⟨.column ⟨.identifier "a"⟩⟩ (some m)⟩] none false⟩
    ∃ (f : List Piece → List Piece) (before after : Template),
      q.compile .postgres = .ok ⟨q, "case when \"a\" then select \"b\" end", []⟩ ∧
        Within .postgres .when m q none f ∧
        (∀ ps, f (Layout.enclosed .selectQuery (some .when) ps) =
          (before ++ none :: after).fill ps) ∧
        ¬ Template.Enclosed before after := by
  intro m q
  have hin : Within .postgres .when m q none _ :=
    .deeper (.caseExpr none [none] none false) none List.mem_cons_self <|
      .child (.when (some ⟨.column ⟨.identifier "a"⟩⟩) (some none)) _ rfl
        (List.mem_cons_of_mem _ List.mem_cons_self)
  refine ⟨_, Template.solid [.text "case", .text " ", .text "when ", .name "a", .text " then "],
    Template.solid [.text " end"], rfl, hin, fun ps => ?_, ?_⟩
  · have hcolumn : piecesIn .postgres ⟨.column ⟨.identifier "a"⟩⟩ (some .when) = [.name "a"] := rfl
    have hbranch : Layout.enclosed .selectQuery (some .when) ps = ps := rfl
    simp [hbranch, Layout.around, Shape.map_eq_each, Shape.each, Shape.kind, hcolumn,
      Layout.pieces, Layout.clauses, Layout.clause, Layout.after, Layout.sql, Layout.sqlIf,
      Template.fill, Template.solid]
  · rintro ⟨⟨b, hb⟩, -⟩
    have hlast := congrArg List.getLast? hb
    simp [Template.solid] at hlast

end Node

end SqlTree
