import SqlTree.Proofs.Pass.Adapting
import SqlTree.Proofs.Tree.Every

/-!
# Texts that are written as they were given

Names of functions, types and index methods, and raw fragments, are written as they were given.
Adapting a tree to a dialect adds one such text, the order of no order, and keeps all positions
(`Node.settled_rewrite_adapt`).
-/

namespace SqlTree

namespace Shape

variable {α β : Type} {V : String → Prop}

/-- The texts that a shape writes as they were given. -/
def verbatims : Shape α → List String
  | .raw ss _ => ss
  | .function name _ => [name]
  | .aggregateFunction p => [p.name]
  | .dataType s => [s]
  | .createIndex p => p.method.toList
  | _ => []

@[simp] theorem verbatims_map (f : α → β) (s : Shape α) : (s.map f).verbatims = s.verbatims := by
  rw [map_eq_each]
  cases s <;> rfl

/-- Shapes that are not raw, with texts among `V`. -/
structure NoRaw (V : String → Prop) (s : Shape α) : Prop where
  kind : s.kind ≠ .raw
  verbatims : ∀ t ∈ s.verbatims, V t

instance [DecidablePred V] (s : Shape α) : Decidable (NoRaw V s) :=
  decidable_of_iff (s.kind ≠ .raw ∧ ∀ t ∈ s.verbatims, V t)
    ⟨fun h => ⟨h.1, h.2⟩, fun h => ⟨h.kind, h.verbatims⟩⟩

/-- Shapes whose children fit, with texts among `V`, and raw ones with nothing but one text. -/
structure Settled (V : String → Prop) (s : Shape Node) : Prop where
  fits : s.Fits
  raw : s.kind = .raw → ∃ t, s = .raw [t] []
  verbatims : ∀ t ∈ s.verbatims, V t

theorem Settled.map {s : Shape Node} (h : s.Settled V) {g : Node → Node}
    (hg : ∀ n, (g n).kind = n.kind) : (s.map g).Settled V where
  fits := h.fits.map hg
  raw hs := by
    obtain ⟨t, rfl⟩ := h.raw (by simpa using hs)
    exact ⟨t, by rw [map_eq_each]; rfl⟩
  verbatims := by simpa using h.verbatims

end Shape

namespace Select

/-- Clauses that take the place of a limit or of no order. -/
inductive Placed (p : Select Node) : Slot × Node → Prop
  | fetch {rows : Node} (h : p.limit = some ⟨.limit rows⟩) :
    Placed p (.only .fetch, ⟨.fetch rows .rowsOnly⟩)
  | top {rows : Node} (h : p.limit = some ⟨.limit rows⟩) : Placed p (.only .top, ⟨.top rows none⟩)
  | anyOrder : Placed p (.only .orderBy, anyOrder)

variable {p : Select Node} {x : Slot × Node}

theorem mem_slotted_limitAsFetch (hx : x ∈ (Shape.selectQuery p.limitAsFetch).slotted) :
    x ∈ (Shape.selectQuery p).slotted ∨ Placed p x := by
  unfold limitAsFetch at hx
  split at hx
  · rename_i hrows hfetch
    have hplaced := Placed.fetch (limit_of_limitRows? hrows)
    simp only [Shape.slotted, Shape.fields, fields, List.flatMap_cons, List.flatMap_nil,
      List.mem_append, Field.slotted_optional, Field.slotted_children, hfetch] at hx ⊢
    grind
  · exact .inl hx

theorem mem_slotted_limitAsTop (hx : x ∈ (Shape.selectQuery p.limitAsTop).slotted) :
    x ∈ (Shape.selectQuery p).slotted ∨ Placed p x := by
  unfold limitAsTop at hx
  split at hx
  · rename_i hrows htop
    have hplaced := Placed.top (limit_of_limitRows? hrows)
    simp only [Shape.slotted, Shape.fields, fields, List.flatMap_cons, List.flatMap_nil,
      List.mem_append, Field.slotted_optional, Field.slotted_children, htop] at hx ⊢
    grind
  · exact .inl hx

theorem mem_slotted_ordered (hx : x ∈ (Shape.selectQuery p.ordered).slotted) :
    x ∈ (Shape.selectQuery p).slotted ∨ x = (.only .orderBy, anyOrder) := by
  unfold ordered at hx
  split at hx
  · rename_i horder
    have hnone : p.orderBy = none := Option.isNone_iff_eq_none.mp horder
    simp only [Shape.slotted, Shape.fields, fields, List.flatMap_cons, List.flatMap_nil,
      List.mem_append, Field.slotted_optional, Field.slotted_children, hnone] at hx ⊢
    grind
  · exact .inl hx

/-- Cutting a select to a window keeps its clauses or places others for its limit. -/
theorem mem_slotted_paginate (style : Pagination)
    (hx : x ∈ (Shape.selectQuery (p.paginate style)).slotted) :
    x ∈ (Shape.selectQuery p).slotted ∨ Placed p x := by
  cases style with
  | limitOffset => exact .inl hx
  | fetchNext => exact mem_slotted_limitAsFetch hx
  | topOrFetch =>
    by_cases hoffset : p.offset.isNone = true
    · rw [paginate, if_pos hoffset] at hx
      exact mem_slotted_limitAsTop hx
    · rw [paginate, if_neg hoffset] at hx
      obtain hx | rfl := mem_slotted_ordered hx
      · exact mem_slotted_limitAsFetch hx
      · exact .inr .anyOrder

end Select

namespace Node

variable {V : String → Prop}

theorem settled_of_noRaw {n : Node} (hw : n.wellFormed = true) (h : n.Every (Shape.NoRaw V)) :
    n.Every (Shape.Settled V) :=
  ((every_fits_iff.mpr hw).and h).imp fun _ hs =>
    ⟨hs.1, fun hk => absurd hk hs.2.kind, hs.2.verbatims⟩

theorem settled_mk_iff {s : Shape Node} (hraw : (s.kind == .raw) = false)
    (hv : s.verbatims = []) :
    Every (Shape.Settled V) ⟨s⟩ ↔
      ∀ x ∈ s.slotted, x.1.admits x.2.kind = true ∧ x.2.Every (Shape.Settled V) := by
  rw [every_mk, ← Shape.map_snd_slotted, List.forall_mem_map]
  constructor
  · exact fun h x hx => ⟨h.1.fits x hx, h.2 x hx⟩
  · intro h
    exact ⟨⟨fun x hx => (h x hx).1, fun hk => absurd hk (ne_of_beq_false hraw), by simp [hv]⟩,
      fun x hx => (h x hx).2⟩

theorem settled_anyOrder (hV : V "(select null)") : Select.anyOrder.Every (Shape.Settled V) := by
  have hraw : Every (Shape.Settled V) ⟨.raw ["(select null)"] []⟩ := by
    refine every_mk.mpr ⟨⟨nofun, fun _ => ⟨_, rfl⟩, ?_⟩, nofun⟩
    simpa [Shape.verbatims] using hV
  have hitem : Every (Shape.Settled V) ⟨.orderByItem ⟨.raw ["(select null)"] []⟩ none none⟩ :=
    (settled_mk_iff rfl rfl).mpr (List.forall_mem_singleton.mpr ⟨rfl, hraw⟩)
  exact (settled_mk_iff rfl rfl).mpr (List.forall_mem_singleton.mpr ⟨rfl, hitem⟩)

/-- A node without a child that nothing was given to write. -/
theorem settled_of_slotted_eq_nil {s : Shape Node} (hs : s.slotted = [])
    (hraw : (s.kind == .raw) = false) (hv : s.verbatims = []) : Every (Shape.Settled V) ⟨s⟩ :=
  (settled_mk_iff hraw hv).mpr (by simp [hs])

theorem settled_bitComparison {n : Node} (h : n.Every (Shape.Settled V)) :
    (bitComparison n).Every (Shape.Settled V) := by
  by_cases ht : n.IsTest
  · cases ht with
    | mk l ho b immediate =>
      rw [bitComparison_test l ho]
      have hl := ((settled_mk_iff rfl rfl).mp h (.any, l) List.mem_cons_self).2
      refine (settled_mk_iff rfl rfl).mpr (List.forall_mem_cons.mpr ⟨⟨rfl, hl⟩, ?_⟩)
      refine List.forall_mem_cons.mpr ⟨⟨rfl, ?_⟩, List.forall_mem_singleton.mpr ⟨rfl, ?_⟩⟩
      · exact settled_of_slotted_eq_nil rfl rfl rfl
      · exact settled_of_slotted_eq_nil rfl rfl rfl
  · rwa [bitComparison_eq_self ht]

theorem settled_placed (hV : V "(select null)") {p : Select Node}
    (h : Every (Shape.Settled V) ⟨.selectQuery p⟩) {x : Slot × Node} (hx : Select.Placed p x) :
    x.1.admits x.2.kind = true ∧ x.2.Every (Shape.Settled V) := by
  have hrows : ∀ rows : Node, p.limit = some ⟨.limit rows⟩ → rows.Every (Shape.Settled V) := by
    intro rows hlimit
    have hmem : (Slot.only .limit, (⟨.limit rows⟩ : Node)) ∈ (Shape.selectQuery p).slotted := by
      simp [Shape.slotted, Shape.fields, Select.fields, hlimit]
    have hlimit := ((settled_mk_iff rfl rfl).mp h _ hmem).2
    exact ((settled_mk_iff rfl rfl).mp hlimit _ List.mem_cons_self).2
  cases hx with
  | fetch hlimit =>
    refine ⟨rfl, (settled_mk_iff rfl rfl).mpr (List.forall_mem_singleton.mpr ⟨rfl, ?_⟩)⟩
    exact hrows _ hlimit
  | top hlimit =>
    refine ⟨rfl, (settled_mk_iff rfl rfl).mpr (List.forall_mem_singleton.mpr ⟨rfl, ?_⟩)⟩
    exact hrows _ hlimit
  | anyOrder => exact ⟨rfl, settled_anyOrder hV⟩

theorem settled_paginateNode (hV : V "(select null)") (style : Pagination) (bits : Bool) {n : Node}
    (h : n.Every (Shape.Settled V)) : (paginateNode style bits n).Every (Shape.Settled V) := by
  unfold paginateNode
  split
  · rename_i p
    refine (settled_mk_iff rfl rfl).mpr fun x hx => ?_
    obtain hx | hx := Select.mem_slotted_paginate style hx
    · exact (settled_mk_iff rfl rfl).mp h x hx
    · exact settled_placed hV h hx
  · split
    · exact settled_bitComparison h
    · exact h
  · exact h

theorem settled_adapt (hV : V "(select null)") (d : Dialect) {n : Node}
    (h : n.Every (Shape.Settled V)) : (d.adapt n).Every (Shape.Settled V) := by
  cases d with
  | mssql => exact settled_paginateNode hV _ _ h
  | oracle => exact settled_paginateNode hV _ _ h
  | _ => exact h

/-- Adapting a tree without raw nodes puts texts among `V` in it, and all fit where they stand. -/
theorem settled_rewrite_adapt (hV : V "(select null)") (d : Dialect) {n : Node}
    (hw : n.wellFormed = true) (h : n.Every (Shape.NoRaw V)) :
    (n.rewrite d.adapt).Every (Shape.Settled V) := by
  refine every_rewrite ?_ (fun _ => settled_adapt hV d) (settled_of_noRaw hw h)
  exact fun s hs => hs.map (kind_rewrite d.kind_adapt)

section WellFormed

theorem wellFormed_placed {p : Select Node} (h : wellFormed ⟨.selectQuery p⟩ = true)
    {x : Slot × Node} (hx : Select.Placed p x) :
    x.1.admits x.2.kind = true ∧ x.2.wellFormed = true := by
  have hrows : ∀ rows : Node, p.limit = some ⟨.limit rows⟩ → rows.wellFormed = true := by
    intro rows hlimit
    have hmem : (⟨.limit rows⟩ : Node) ∈ (Shape.selectQuery p).children := by
      simp [Shape.children, Shape.fields, Select.fields, Field.toList, hlimit]
    exact wellFormed_of_mem_children (wellFormed_of_mem_children h hmem) List.mem_cons_self
  cases hx with
  | fetch hlimit =>
    exact ⟨rfl, wellFormed_mk_iff.mpr (List.forall_mem_singleton.mpr ⟨rfl, hrows _ hlimit⟩)⟩
  | top hlimit =>
    exact ⟨rfl, wellFormed_mk_iff.mpr (List.forall_mem_singleton.mpr ⟨rfl, hrows _ hlimit⟩)⟩
  | anyOrder => exact ⟨rfl, by decide⟩

theorem wellFormed_bitComparison {n : Node} (h : n.wellFormed = true) :
    (bitComparison n).wellFormed = true := by
  by_cases ht : n.IsTest
  · cases ht with
    | mk l ho b immediate =>
      rw [bitComparison_test l ho]
      have hl := wellFormed_of_mem_children h (c := l) List.mem_cons_self
      refine wellFormed_mk_iff.mpr (List.forall_mem_cons.mpr ⟨⟨rfl, hl⟩, ?_⟩)
      exact List.forall_mem_cons.mpr ⟨⟨rfl, rfl⟩, List.forall_mem_singleton.mpr ⟨rfl, rfl⟩⟩
  · rwa [bitComparison_eq_self ht]

theorem wellFormed_paginateNode (style : Pagination) (bits : Bool) {n : Node}
    (h : n.wellFormed = true) : (paginateNode style bits n).wellFormed = true := by
  unfold paginateNode
  split
  · refine wellFormed_mk_iff.mpr fun x hx => ?_
    obtain hx | hx := Select.mem_slotted_paginate style hx
    · exact wellFormed_mk_iff.mp h x hx
    · exact wellFormed_placed h hx
  · split
    · exact wellFormed_bitComparison h
    · exact h
  · exact h

/-- What a dialect makes of a well-formed tree is well formed. -/
theorem wellFormed_rewrite_adapt (d : Dialect) {n : Node} (h : n.wellFormed = true) :
    (n.rewrite d.adapt).wellFormed = true := by
  refine wellFormed_rewrite d.kind_adapt (fun n hn => ?_) h
  cases d with
  | mssql => exact wellFormed_paginateNode _ _ hn
  | oracle => exact wellFormed_paginateNode _ _ hn
  | _ => exact hn

end WellFormed

end Node

end SqlTree
