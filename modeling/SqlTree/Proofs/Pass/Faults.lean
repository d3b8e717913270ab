import SqlTree.Proofs.Pass.Settled
import SqlTree.Proofs.Render.Refusal
import SqlTree.Proofs.Tree.Equality

/-!
# Rewritings that fail for the same

Adapting a select moves a limit in front of other clauses, and with it what is refused in it.  Two
selects whose clauses are refused alike are still refused alike afterwards
(`Node.RefusedAlike.adapt`), so a tree may be exchanged inside another one for a tree that fails
alike when it is compiled (`Node.FailsAlike`), and a rewriting of which every step does that
changes no failure (`Node.KeepsFaults.failsAlike_rewritten`).
-/

namespace SqlTree

namespace Node

/-- Two trees that a dialect refuses alike. -/
structure AlikePair (d : Dialect) where
  fst : Node
  snd : Node
  alike : RefusedAlike d fst snd

theorem exists_limit {n : Node} (h : n.kind = .limit) : ∃ rows, n = ⟨.limit rows⟩ := by
  obtain ⟨s⟩ := n
  cases s with
  | limit rows => exact ⟨rows, rfl⟩
  | _ => cases h

section Window

variable (d : Dialect) (rows : Node)

theorem refusal?_limit : refusal? d ⟨.limit rows⟩ = rows.refusal? d := by
  rw [refusal?, pieces, piecesIn_mk, Shape.map_eq_each]
  simp only [Shape.each, Layout.pieces, Piece.refusal?_append, Piece.refusal?_sql, Option.none_or,
    refusal?_piecesIn]

theorem refusal?_fetch (m : FetchModifier) : refusal? d ⟨.fetch rows m⟩ = rows.refusal? d := by
  rw [refusal?, pieces, piecesIn_mk, Shape.map_eq_each]
  simp only [Shape.each, Layout.pieces, Piece.refusal?_append, Piece.refusal?_sql, Option.none_or,
    Option.or_none, refusal?_piecesIn]

theorem refusal?_top : refusal? d ⟨.top rows none⟩ = rows.refusal? d := by
  rw [refusal?, pieces, piecesIn_mk, Shape.map_eq_each]
  simp only [Shape.each, Layout.pieces, List.append_nil, Piece.refusal?_append, Piece.refusal?_sql,
    Option.none_or, Option.or_none, refusal?_piecesIn]

end Window

end Node

namespace Select

open Node

variable {d : Dialect}

/-- The clauses of two selects, pair by pair. -/
def AlikeIn (d : Dialect) (p q : Select Node) : Prop :=
  ∃ r : Select (AlikePair d), p = r.each AlikePair.fst ∧ q = r.each AlikePair.snd

/-- Either both selects have a limit that may be moved, or neither has. -/
theorem limitRows?_alike (r : Select (AlikePair d)) :
    ((r.each AlikePair.fst).limitRows? = none ∧ (r.each AlikePair.snd).limitRows? = none) ∨
      ∃ a b, (r.each AlikePair.fst).limitRows? = some a ∧
        (r.each AlikePair.snd).limitRows? = some b ∧ a.refusal? d = b.refusal? d := by
  cases hr : r.limit with
  | none => exact .inl ⟨by simp [limitRows?, each, hr], by simp [limitRows?, each, hr]⟩
  | some x =>
    obtain ⟨m, n, hmn⟩ := x
    have hfst : (r.each AlikePair.fst).limit = some m := by simp [each, hr]
    have hsnd : (r.each AlikePair.snd).limit = some n := by simp [each, hr]
    by_cases hk : m.kind = .limit
    · obtain ⟨a, rfl⟩ := exists_limit hk
      obtain ⟨b, rfl⟩ := exists_limit (hmn.kind.symm.trans hk)
      have hrefusal := hmn.refusal
      rw [refusal?_limit, refusal?_limit] at hrefusal
      exact .inr ⟨a, b, by simp [limitRows?, hfst], by simp [limitRows?, hsnd], hrefusal⟩
    · refine .inl ⟨limitRows?_eq_none hfst hk, limitRows?_eq_none hsnd ?_⟩
      rwa [← hmn.kind]

theorem AlikeIn.limitAsFetch {p q : Select Node} (h : AlikeIn d p q) :
    AlikeIn d p.limitAsFetch q.limitAsFetch := by
  obtain ⟨r, rfl, rfl⟩ := h
  cases hr : r.fetch with
  | some x =>
    have hsome : ∀ g : AlikePair d → Node, (r.each g).limitAsFetch = r.each g := by
      intro g
      simp [Select.limitAsFetch, each, hr]
    exact ⟨r, hsome _, hsome _⟩
  | none =>
    obtain ⟨hm, hn⟩ | ⟨a, b, hm, hn, hab⟩ := limitRows?_alike r
    · exact ⟨r, by simp [Select.limitAsFetch, hm], by simp [Select.limitAsFetch, hn]⟩
    · have hfetch : RefusedAlike d ⟨.fetch a .rowsOnly⟩ ⟨.fetch b .rowsOnly⟩ :=
        ⟨rfl, ⟨rfl, rfl, rfl⟩, by rw [refusal?_fetch, refusal?_fetch, hab]⟩
      refine ⟨{ r with fetch := some ⟨_, _, hfetch⟩, limit := none }, ?_, ?_⟩
      · rw [Select.limitAsFetch, hm]
        simp [each, hr]
      · rw [Select.limitAsFetch, hn]
        simp [each, hr]

theorem AlikeIn.limitAsTop {p q : Select Node} (h : AlikeIn d p q) :
    AlikeIn d p.limitAsTop q.limitAsTop := by
  obtain ⟨r, rfl, rfl⟩ := h
  cases hr : r.top with
  | some x =>
    have hsome : ∀ g : AlikePair d → Node, (r.each g).limitAsTop = r.each g := by
      intro g
      simp [Select.limitAsTop, each, hr]
    exact ⟨r, hsome _, hsome _⟩
  | none =>
    obtain ⟨hm, hn⟩ | ⟨a, b, hm, hn, hab⟩ := limitRows?_alike r
    · exact ⟨r, by simp [Select.limitAsTop, hm], by simp [Select.limitAsTop, hn]⟩
    · have htop : RefusedAlike d ⟨.top a none⟩ ⟨.top b none⟩ :=
        ⟨rfl, ⟨rfl, rfl, rfl⟩, by rw [refusal?_top, refusal?_top, hab]⟩
      refine ⟨{ r with top := some ⟨_, _, htop⟩, limit := none }, ?_, ?_⟩
      · rw [Select.limitAsTop, hm]
        simp [each, hr]
      · rw [Select.limitAsTop, hn]
        simp [each, hr]

theorem AlikeIn.ordered {p q : Select Node} (h : AlikeIn d p q) :
    AlikeIn d p.ordered q.ordered := by
  obtain ⟨r, rfl, rfl⟩ := h
  cases hr : r.orderBy with
  | some x =>
    have hsome : ∀ g : AlikePair d → Node, (r.each g).ordered = r.each g := by
      intro g
      simp [Select.ordered, each, hr]
    exact ⟨r, hsome _, hsome _⟩
  | none =>
    refine ⟨{ r with orderBy := some ⟨anyOrder, anyOrder, .refl _⟩ }, ?_, ?_⟩
    · simp [Select.ordered, each, hr]
    · simp [Select.ordered, each, hr]

/-- Moving the limit keeps the clauses of two selects alike. -/
theorem AlikeIn.paginate (style : Pagination) {p q : Select Node} (h : AlikeIn d p q) :
    AlikeIn d (p.paginate style) (q.paginate style) := by
  cases style with
  | limitOffset => exact h
  | fetchNext => exact h.limitAsFetch
  | topOrFetch =>
    have hoffset : p.offset.isNone = q.offset.isNone := by
      obtain ⟨r, rfl, rfl⟩ := h
      simp [each]
    simp only [Select.paginate, hoffset]
    split
    · exact h.limitAsTop
    · exact h.limitAsFetch.ordered

theorem AlikeIn.refusedAlike {p q : Select Node} (h : AlikeIn d p q) :
    RefusedAlike d ⟨.selectQuery p⟩ ⟨.selectQuery q⟩ := by
  obtain ⟨r, rfl, rfl⟩ := h
  refine ⟨rfl, ⟨rfl, rfl, rfl⟩, ?_⟩
  have hpieces : ∀ g : AlikePair d → Node, refusal? d ⟨.selectQuery (r.each g)⟩ =
      Piece.refusal? (Layout.select (r.each fun x =>
        (g x, (g x).piecesIn d (some .selectQuery)))) := by
    intro g
    have hmap : (Shape.selectQuery (r.each g) : Shape Node) = (Shape.selectQuery r).map g := by
      rw [Shape.map_eq_each]
      rfl
    rw [hmap, refusal?, pieces, piecesIn_mk, Shape.map_map, Shape.map_eq_each]
    rfl
  rw [hpieces, hpieces]
  refine (Piece.refusal_congruence d).select ?_ (fun x => x.alike.alike) r
  intro x
  exact (refusal?_piecesIn d _ _).trans (x.alike.refusal.trans (refusal?_piecesIn d _ _).symm)

/-- Maps under which every clause is refused alike pair the clauses. -/
theorem alikeIn_each {α : Type} {f g : α → Node} {p : Select α}
    (h : ∀ a ∈ (Shape.selectQuery p).children, RefusedAlike d (f a) (g a)) :
    AlikeIn d (p.each f) (p.each g) := by
  classical
  -- Off the clauses the maps do not matter, and any two alike will do.
  let pair (a : α) : AlikePair d :=
    if ha : a ∈ (Shape.selectQuery p).children then ⟨f a, g a, h a ha⟩
    else ⟨default, default, .refl _⟩
  have hside : ∀ (side : AlikePair d → Node) (f : α → Node),
      (∀ a ∈ (Shape.selectQuery p).children, f a = side (pair a)) →
        p.each f = (p.each pair).each side := by
    intro side f hf
    have hmap := Shape.map_congr _ hf
    rw [← Function.comp_def side pair, ← Shape.map_map, Shape.map_eq_each, Shape.map_eq_each,
      Shape.map_eq_each] at hmap
    exact Shape.selectQuery.inj hmap
  refine ⟨p.each pair, hside _ f fun a ha => ?_, hside _ g fun a ha => ?_⟩
  · simp only [pair, dif_pos ha]
  · simp only [pair, dif_pos ha]

end Select

namespace Dialect

theorem adapt_selectQuery (d : Dialect) (p : Select Node) :
    d.adapt ⟨.selectQuery p⟩ = ⟨.selectQuery (p.paginate d.pagination)⟩ := by
  cases d <;> rfl

end Dialect

namespace Node

theorem refusal?_binaryOperation (d : Dialect) (l : Node) (o : Operator) (v : Value)
    (immediate : Bool) :
    refusal? d ⟨.binaryOperation l ⟨.operator o⟩ ⟨.value v immediate⟩⟩ = l.refusal? d := by
  have hoperator : Piece.refusal? (piecesIn d ⟨.operator o⟩ (some .binaryOperation)) = none := rfl
  have hvalue :
      Piece.refusal? (piecesIn d ⟨.value v immediate⟩ (some .binaryOperation)) = none := by
    cases immediate <;> rfl
  rw [refusal?, pieces, piecesIn_mk, Shape.map_eq_each]
  simp only [Shape.each, Layout.pieces, Piece.refusal?_append, Piece.refusal?_sql, Option.or_none,
    Shape.kind, hoperator, hvalue, refusal?_piecesIn]

theorem refusedAlike_bitComparison (d : Dialect) (n : Node) :
    RefusedAlike d (bitComparison n) n := by
  by_cases ht : n.IsTest
  · cases ht with
    | mk l ho b immediate =>
      rw [bitComparison_test l ho]
      refine ⟨rfl, ⟨rfl, rfl, rfl⟩, ?_⟩
      rw [refusal?_binaryOperation, refusal?_binaryOperation]
  · rw [bitComparison_eq_self ht]

/-- Adapting a comparison changes nothing that can be refused. -/
theorem refusedAlike_adapt_of_binaryOperation (d : Dialect) {n : Node}
    (h : n.kind = .binaryOperation) : RefusedAlike d (d.adapt n) n := by
  obtain ⟨s⟩ := n
  cases s with
  | binaryOperation l op r =>
    cases d with
    | mssql => exact refusedAlike_bitComparison _ _
    | _ => exact .refl _
  | _ => cases h

/-- Adapted trees of one shape are refused alike if their children are. -/
theorem RefusedAlike.adapt {d : Dialect} {α : Type} {f g : α → Node} {s : Shape α}
    (h : ∀ a ∈ s.children, RefusedAlike d (f a) (g a))
    (hj : ∀ a, (Slot.only .join, a) ∈ s.slotted → (f a).kind = .join) :
    RefusedAlike d (d.adapt ⟨s.map f⟩) (d.adapt ⟨s.map g⟩) := by
  by_cases hs : s.kind = .selectQuery
  · rw [Shape.map_eq_each, Shape.map_eq_each]
    cases s with
    | selectQuery p =>
      have halike := Select.alikeIn_each h
      exact d.adapt_selectQuery (p.each f) ▸ d.adapt_selectQuery (p.each g) ▸
        (halike.paginate d.pagination).refusedAlike
    | _ => cases hs
  have hmap := RefusedAlike.map h hj
  by_cases hb : s.kind = .binaryOperation
  · have hf := refusedAlike_adapt_of_binaryOperation d (n := ⟨s.map f⟩)
      ((Shape.kind_map f s).trans hb)
    have hg := refusedAlike_adapt_of_binaryOperation d (n := ⟨s.map g⟩)
      ((Shape.kind_map g s).trans hb)
    exact (hf.trans hmap).trans hg.symm
  · have hself : ∀ f : α → Node, d.adapt ⟨s.map f⟩ = ⟨s.map f⟩ := by
      intro f
      apply d.adapt_eq_self
      · exact fun h => hs ((Shape.kind_map f s).symm.trans h)
      · exact fun h => hb ((Shape.kind_map f s).symm.trans h)
    rwa [hself, hself]

/-- What a dialect refuses first in a tree when it is compiled. -/
def fault? (d : Dialect) (n : Node) : Option Feature := (n.rewrite d.adapt).refusal? d

/-- Trees that fail alike when they are compiled. -/
def FailsAlike (d : Dialect) (m n : Node) : Prop :=
  RefusedAlike d (m.rewrite d.adapt) (n.rewrite d.adapt)

namespace FailsAlike

variable {d : Dialect} {l m n : Node}

@[refl] theorem refl (n : Node) : FailsAlike d n n := RefusedAlike.refl _

@[symm] theorem symm (h : FailsAlike d m n) : FailsAlike d n m := RefusedAlike.symm h

@[trans] theorem trans (h : FailsAlike d l m) (h' : FailsAlike d m n) : FailsAlike d l n :=
  RefusedAlike.trans h h'

/-- Trees of one shape fail alike if their children do. -/
theorem map {α : Type} {f g : α → Node} {s : Shape α}
    (h : ∀ a ∈ s.children, FailsAlike d (f a) (g a))
    (hj : ∀ a, (Slot.only .join, a) ∈ s.slotted → (f a).kind = .join) :
    FailsAlike d ⟨s.map f⟩ ⟨s.map g⟩ := by
  rw [FailsAlike, rewrite_mk, rewrite_mk, Shape.map_map, Shape.map_map]
  apply RefusedAlike.adapt h
  intro a ha
  exact (kind_rewrite d.kind_adapt (f a)).trans (hj a ha)

end FailsAlike

/-- Compiling fails for what is refused first in the adapted tree. -/
theorem compile_eq_error_iff (d : Dialect) {n : Node} (h : n.wellFormed = true) (e : Error) :
    n.compile d = .error e ↔ ∃ f, n.fault? d = some f ∧ e = .unsupported d.name f := by
  cases hr : n.fault? d with
  | none =>
    rw [compile_of_no_refusal h hr]
    simp
  | some f =>
    rw [compile_of_refusal h hr]
    simp [eq_comm]

theorem FailsAlike.fault?_eq {d : Dialect} {m n : Node} (h : FailsAlike d m n) :
    m.fault? d = n.fault? d := h.refusal

theorem FailsAlike.compile_eq_error_iff {d : Dialect} {m n : Node} (h : FailsAlike d m n)
    (hm : m.wellFormed = true) (hn : n.wellFormed = true) (e : Error) :
    m.compile d = .error e ↔ n.compile d = .error e := by
  rw [Node.compile_eq_error_iff d hm, Node.compile_eq_error_iff d hn, h.fault?_eq]

theorem FailsAlike.exists_compile_iff {d : Dialect} {m n : Node} (h : FailsAlike d m n)
    (hm : m.wellFormed = true) (hn : n.wellFormed = true) :
    (∃ q, m.compile d = .ok q) ↔ ∃ q, n.compile d = .ok q := by
  have hiff := h.compile_eq_error_iff hm hn
  cases hcm : m.compile d with
  | error e => rw [(hiff e).mp hcm]
  | ok q =>
    cases hcn : n.compile d with
    | error e =>
      have he := (hiff e).mpr hcn
      rw [hcm] at he
      cases he
    | ok q' => simp

/-- Steps of a rewriting that keep kinds and positions and change no failure. -/
structure KeepsFaults (f : Node → List Node → Node) : Prop where
  kind : ∀ n ancestors, (f n ancestors).kind = n.kind
  wellFormed : ∀ n ancestors, n.wellFormed = true → (f n ancestors).wellFormed = true
  failsAlike : ∀ d n ancestors, n.wellFormed = true → FailsAlike d n (f n ancestors)

namespace KeepsFaults

variable {f : Node → List Node → Node} (hf : KeepsFaults f)
include hf

/-- A rewriting fails where the tree does if every step does. -/
theorem failsAlike_rewritten (d : Dialect) {n : Node} (h : n.wellFormed = true)
    (ancestors : List Node) : FailsAlike d n (n.rewritten f ancestors) := by
  induction n using childrenInduction generalizing ancestors with
  | h s ih =>
    let below : List Node := ancestors ++ [⟨s⟩]
    have hwell : (⟨s.map fun c => c.rewritten f below⟩ : Node).wellFormed = true := by
      apply wellFormed_map h
      · exact fun n => kind_rewritten hf.kind n _
      · exact fun c hc => wellFormed_rewritten hf.kind hf.wellFormed
          (wellFormed_of_mem_children h hc) _
    have hchildren : FailsAlike d ⟨s⟩ ⟨s.map fun c => c.rewritten f below⟩ := by
      have hmap := FailsAlike.map (d := d) (f := id) (s := s)
        (g := fun c => c.rewritten f below)
        (fun c hc => ih c hc (wellFormed_of_mem_children h hc) _)
        fun j hj => kind_of_usingJoin h hj
      rwa [Shape.map_id] at hmap
    rw [rewritten_mk]
    exact hchildren.trans (hf.failsAlike d _ ancestors hwell)

end KeepsFaults

end Node

end SqlTree
