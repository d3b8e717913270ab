import SqlTree.Proofs.Pass.Settled

/-!
# Compiling what was compiled

A dialect leaves a tree alone if it leaves each of its nodes as it is.  Cutting a select to a window
and comparing with a bit make nodes that stay as they are, so a dialect leaves alone what it made of
a tree (`Node.unchanged_rewrite_adapt`), and such a tree is compiled as it stands.
-/

namespace SqlTree

namespace Select

/-- Without a limit to move, or with a fetch in its place, nothing is moved. -/
theorem limitAsFetch_eq_self {p : Select Node} (h : p.limitRows? = none ∨ p.fetch.isSome) :
    p.limitAsFetch = p := by
  unfold limitAsFetch
  split
  · rename_i hrows hfetch
    simp [hrows, hfetch] at h
  · rfl

theorem limitRows?_limitAsFetch (p : Select Node) :
    p.limitAsFetch.limitRows? = none ∨ p.limitAsFetch.fetch.isSome := by
  cases hrows : p.limitRows? with
  | none => exact .inl (by rwa [limitAsFetch_eq_self (.inl hrows)])
  | some rows =>
    refine .inr ?_
    cases hfetch : p.fetch with
    | none => simp only [limitAsFetch, hrows, hfetch, Option.isSome_some]
    | some n => rw [limitAsFetch_eq_self (.inr (by rw [hfetch]; rfl)), hfetch]; rfl

theorem limitAsTop_eq_self {p : Select Node} (h : p.limitRows? = none ∨ p.top.isSome) :
    p.limitAsTop = p := by
  unfold limitAsTop
  split
  · rename_i hrows htop
    simp [hrows, htop] at h
  · rfl

theorem limitRows?_limitAsTop (p : Select Node) :
    p.limitAsTop.limitRows? = none ∨ p.limitAsTop.top.isSome := by
  cases hrows : p.limitRows? with
  | none => exact .inl (by rwa [limitAsTop_eq_self (.inl hrows)])
  | some rows =>
    refine .inr ?_
    cases htop : p.top with
    | none => simp only [limitAsTop, hrows, htop, Option.isSome_some]
    | some n => rw [limitAsTop_eq_self (.inr (by rw [htop]; rfl)), htop]; rfl

@[simp] theorem limitRows?_ordered (p : Select Node) : p.ordered.limitRows? = p.limitRows? := by
  unfold ordered
  split <;> rfl

@[simp] theorem fetch_ordered (p : Select Node) : p.ordered.fetch = p.fetch := by
  unfold ordered
  split <;> rfl

@[simp] theorem offset_ordered (p : Select Node) : p.ordered.offset = p.offset := by
  unfold ordered
  split <;> rfl

@[simp] theorem offset_limitAsFetch (p : Select Node) : p.limitAsFetch.offset = p.offset := by
  unfold limitAsFetch
  split <;> rfl

@[simp] theorem offset_limitAsTop (p : Select Node) : p.limitAsTop.offset = p.offset := by
  unfold limitAsTop
  split <;> rfl

theorem ordered_ordered (p : Select Node) : p.ordered.ordered = p.ordered := by
  cases horder : p.orderBy <;> simp [ordered, horder]

/-- A select that was cut to a window is not cut again. -/
theorem paginate_paginate (style : Pagination) (p : Select Node) :
    (p.paginate style).paginate style = p.paginate style := by
  cases style with
  | limitOffset => rfl
  | fetchNext => exact limitAsFetch_eq_self p.limitRows?_limitAsFetch
  | topOrFetch =>
    by_cases hoffset : p.offset.isNone = true
    · simp only [paginate, hoffset, offset_limitAsTop, if_true]
      exact limitAsTop_eq_self p.limitRows?_limitAsTop
    · have hmoved : p.limitAsFetch.ordered.limitAsFetch = p.limitAsFetch.ordered := by
        apply limitAsFetch_eq_self
        rw [limitRows?_ordered, fetch_ordered]
        exact p.limitRows?_limitAsFetch
      simp only [paginate, hoffset, offset_ordered, offset_limitAsFetch, Bool.false_eq_true,
        if_false, hmoved, ordered_ordered]

end Select

/-- A comparison with a bit is no test for truth. -/
theorem bitComparison_bitComparison (n : Node) :
    bitComparison (bitComparison n) = bitComparison n := by
  by_cases h : n.IsTest
  · cases h with
    | mk l ho b immediate =>
      rw [bitComparison_test l ho]
      rfl
  · rw [bitComparison_eq_self h, bitComparison_eq_self h]

theorem paginateNode_selectQuery (style : Pagination) (bits : Bool) (p : Select Node) :
    paginateNode style bits ⟨.selectQuery p⟩ = ⟨.selectQuery (p.paginate style)⟩ := rfl

theorem paginateNode_binaryOperation (style : Pagination) (bits : Bool) {n : Node}
    (h : n.kind = .binaryOperation) :
    paginateNode style bits n = if bits then bitComparison n else n := by
  obtain ⟨s⟩ := n
  cases s with
  | binaryOperation l op r => rfl
  | _ => cases h

theorem paginateNode_paginateNode (style : Pagination) (bits : Bool) (n : Node) :
    paginateNode style bits (paginateNode style bits n) = paginateNode style bits n := by
  by_cases hb : n.kind = .binaryOperation
  · have hkind := kind_paginateNode style bits n
    rw [paginateNode_binaryOperation style bits (hkind.trans hb),
      paginateNode_binaryOperation style bits hb]
    cases bits with
    | false => rfl
    | true => exact bitComparison_bitComparison n
  · by_cases hs : n.kind = .selectQuery
    · obtain ⟨s⟩ := n
      cases s with
      | selectQuery p => simp only [paginateNode_selectQuery, p.paginate_paginate]
      | _ => cases hs
    · rw [paginateNode_eq_self style bits hs hb, paginateNode_eq_self style bits hs hb]

namespace Node

/-- Whether a change of single nodes leaves every node of the tree as it is. -/
def Unchanged (f : Node → Node) : Node → Prop := Every fun s => f ⟨s⟩ = ⟨s⟩

theorem unchanged_iff {f : Node → Node} {n : Node} :
    n.Unchanged f ↔ f n = n ∧ ∀ c ∈ n.shape.children, c.Unchanged f := by
  obtain ⟨s⟩ := n
  exact every_mk

/-- A dialect leaves alone what has no select and no comparison in it. -/
theorem unchanged_adapt (d : Dialect) {n : Node}
    (h : n.Every fun s => s.kind ≠ .selectQuery ∧ s.kind ≠ .binaryOperation) :
    n.Unchanged d.adapt :=
  h.imp fun _ hs => d.adapt_eq_self hs.1 hs.2

theorem rewrite_of_unchanged {f : Node → Node} {n : Node} (h : n.Unchanged f) :
    n.rewrite f = n := by
  induction n using childrenInduction with
  | h s ih =>
    obtain ⟨hs, hchildren⟩ := unchanged_iff.mp h
    have hmap : s.map (rewrite f) = s :=
      (s.map_congr fun c hc => ih c hc (hchildren c hc)).trans s.map_id
    rw [rewrite_mk, hmap, hs]

/-- A change that leaves alone what it made of a node, over children it leaves alone, leaves alone
what it made of a tree. -/
theorem unchanged_rewrite {f : Node → Node}
    (hf : ∀ n, (∀ c ∈ n.shape.children, c.Unchanged f) → (f n).Unchanged f) (n : Node) :
    (n.rewrite f).Unchanged f := by
  induction n using childrenInduction with
  | h s ih =>
    rw [rewrite_mk]
    apply hf
    rw [shape, Shape.children_map, List.forall_mem_map]
    exact ih

section Paginated

variable {style : Pagination} {bits : Bool}

theorem unchanged_of_kind {n : Node} (hs : (n.kind == .selectQuery) = false)
    (hb : (n.kind == .binaryOperation) = false)
    (h : ∀ c ∈ n.shape.children, c.Unchanged (paginateNode style bits)) :
    n.Unchanged (paginateNode style bits) :=
  unchanged_iff.mpr
    ⟨paginateNode_eq_self style bits (ne_of_beq_false hs) (ne_of_beq_false hb), h⟩

/-- What takes the place of a limit has its rows below it, and no order has no select. -/
theorem unchanged_placed {p : Select Node}
    (h : ∀ c ∈ (Shape.selectQuery p).children, c.Unchanged (paginateNode style bits))
    {x : Slot × Node} (hx : Select.Placed p x) : x.2.Unchanged (paginateNode style bits) := by
  have hrows : ∀ rows : Node, p.limit = some ⟨.limit rows⟩ →
      rows.Unchanged (paginateNode style bits) := by
    intro rows hlimit
    have hmem : (⟨.limit rows⟩ : Node) ∈ (Shape.selectQuery p).children := by
      simp [Shape.children, Shape.fields, Select.fields, Field.toList, hlimit]
    exact (unchanged_iff.mp (h _ hmem)).2 rows List.mem_cons_self
  cases hx with
  | fetch hlimit =>
    exact unchanged_of_kind rfl rfl (List.forall_mem_singleton.mpr (hrows _ hlimit))
  | top hlimit =>
    exact unchanged_of_kind rfl rfl (List.forall_mem_singleton.mpr (hrows _ hlimit))
  | anyOrder =>
    refine unchanged_of_kind rfl rfl (List.forall_mem_singleton.mpr ?_)
    refine unchanged_of_kind rfl rfl (List.forall_mem_singleton.mpr ?_)
    exact unchanged_of_kind rfl rfl (List.forall_mem_nil _)

theorem unchanged_children_paginate {p : Select Node}
    (h : ∀ c ∈ (Shape.selectQuery p).children, c.Unchanged (paginateNode style bits)) :
    ∀ c ∈ (Shape.selectQuery (p.paginate style)).children,
      c.Unchanged (paginateNode style bits) := by
  rw [← Shape.map_snd_slotted, List.forall_mem_map]
  intro x hx
  obtain hx | hx := Select.mem_slotted_paginate style hx
  · exact h x.2 (Shape.mem_children_of_mem_slotted hx)
  · exact unchanged_placed h hx

theorem unchanged_children_bitComparison {n : Node}
    (h : ∀ c ∈ n.shape.children, c.Unchanged (paginateNode style bits)) :
    ∀ c ∈ (bitComparison n).shape.children, c.Unchanged (paginateNode style bits) := by
  by_cases ht : n.IsTest
  · cases ht with
    | mk l ho b immediate =>
      rw [bitComparison_test l ho]
      refine List.forall_mem_cons.mpr ⟨h l List.mem_cons_self, List.forall_mem_cons.mpr ?_⟩
      refine ⟨unchanged_of_kind rfl rfl (List.forall_mem_nil _), List.forall_mem_singleton.mpr ?_⟩
      exact unchanged_of_kind rfl rfl (List.forall_mem_nil _)
  · rwa [bitComparison_eq_self ht]

theorem unchanged_paginateNode (n : Node)
    (h : ∀ c ∈ n.shape.children, c.Unchanged (paginateNode style bits)) :
    (paginateNode style bits n).Unchanged (paginateNode style bits) := by
  refine unchanged_iff.mpr ⟨paginateNode_paginateNode style bits n, ?_⟩
  by_cases hb : n.kind = .binaryOperation
  · rw [paginateNode_binaryOperation style bits hb]
    cases bits with
    | false => exact h
    | true => exact unchanged_children_bitComparison h
  · by_cases hs : n.kind = .selectQuery
    · obtain ⟨s⟩ := n
      cases s with
      | selectQuery p => exact unchanged_children_paginate h
      | _ => cases hs
    · rwa [paginateNode_eq_self style bits hs hb]

end Paginated

/-- A dialect leaves alone what it made of a tree, at every depth. -/
theorem unchanged_rewrite_adapt (d : Dialect) (n : Node) :
    (n.rewrite d.adapt).Unchanged d.adapt := by
  cases d with
  | mssql => exact unchanged_rewrite unchanged_paginateNode n
  | oracle => exact unchanged_rewrite unchanged_paginateNode n
  | _ => exact unchanged_rewrite (fun n hn => unchanged_iff.mpr ⟨rfl, hn⟩) n

theorem wellFormed_of_apply_eq_ok {d : Dialect} {n q : Node} (h : d.apply n = .ok q) :
    d.apply = .ok ∨ n.wellFormed = true := by
  cases d with
  | mssql =>
    exact .inr (wellFormed_of_transformBelow_eq_ok (fun n _ => kind_paginateNode _ _ n) n [] h)
  | oracle =>
    exact .inr (wellFormed_of_transformBelow_eq_ok (fun n _ => kind_paginateNode _ _ n) n [] h)
  | _ => exact .inl rfl

/-- A dialect gives back each subtree of what it made of a tree. -/
theorem every_apply_of_apply_eq_ok {d : Dialect} {n q : Node} (h : d.apply n = .ok q) :
    q.Every fun s => d.apply ⟨s⟩ = .ok ⟨s⟩ := by
  obtain hd | hw := wellFormed_of_apply_eq_ok h
  · exact every_of_forall (fun s => congrFun hd ⟨s⟩) q
  · rw [d.apply_eq_rewrite hw] at h
    cases h
    have hfits := every_fits_iff.mpr (wellFormed_rewrite_adapt d hw)
    refine (hfits.below.and (unchanged_rewrite_adapt d n).below).imp fun s hs => ?_
    rw [d.apply_eq_rewrite (every_fits_iff.mp hs.1)]
    exact congrArg Except.ok (rewrite_of_unchanged hs.2)

theorem apply_of_compile_eq_ok {d : Dialect} {n : Node} {c : Compiled}
    (h : n.compile d = .ok c) : d.apply n = .ok c.query := by
  cases hq : d.apply n with
  | error e =>
    rw [compile, hq] at h
    cases h
  | ok q =>
    cases hr : q.render d with
    | error e =>
      simp only [compile, hq, hr, bind, Except.bind, reduceCtorEq] at h
    | ok r =>
      simp only [compile, hq, hr, bind, Except.bind] at h
      cases h
      rfl

/-- Trees of which a dialect makes the same are compiled alike. -/
theorem compile_congr {d : Dialect} {n m : Node} (h : d.apply n = d.apply m) :
    n.compile d = m.compile d := by
  rw [compile, compile, h]

/-- Compiling the tree that was written gives it again with the same text and parameters, and a
dialect gives back every subtree of what it made of a tree. -/
theorem compile_recompiled (d : Dialect) (n : Node) :
    (∀ c, n.compile d = .ok c → c.query.compile d = .ok c) ∧
      ∀ q, d.apply n = .ok q → q.Every fun s => d.apply ⟨s⟩ = .ok ⟨s⟩ := by
  refine ⟨fun c hc => ?_, fun q hq => every_apply_of_apply_eq_ok hq⟩
  have hn := apply_of_compile_eq_ok hc
  have hq : d.apply c.query = .ok c.query := by
    have hevery := every_apply_of_apply_eq_ok hn
    obtain ⟨⟨s⟩, sql, parameters⟩ := c
    exact (every_mk.mp hevery).1
  rw [compile_congr (hq.trans hn.symm), hc]

/-- A limit that became `fetch`, with a test that became a comparison with a bit. -/
theorem compile_recompiled_window :
    let n : Node := ⟨.selectQuery {
      whereClause := some ⟨.whereClause ⟨.binaryOperation ⟨.column ⟨.identifier "active"⟩⟩
        ⟨.operator .isNot⟩ ⟨.value (.bool true) true⟩⟩⟩
      limit := some ⟨.limit ⟨.value (.int 10) false⟩⟩
      offset := some ⟨.offset ⟨.value (.int 20) false⟩⟩ }⟩
    ∃ c, n.compile .mssql = .ok c ∧ c.parameters = [.int 20, .int 10] ∧
      c.query.compile .mssql = .ok c ∧ c.query.Every fun s =>
        Dialect.apply .mssql ⟨s⟩ = .ok ⟨s⟩ := by
  intro n
  have hw : n.wellFormed = true := rfl
  have hn := Dialect.apply_eq_rewrite .mssql hw
  have hc := compile_of_no_refusal (d := .mssql) hw rfl
  obtain ⟨hcompiled, happlied⟩ := compile_recompiled .mssql n
  exact ⟨_, hc, rfl, hcompiled _ hc, happlied _ hn⟩

end Node

end SqlTree
