import SqlTree.Proofs.Compound.Window
import SqlTree.Proofs.Pass.Recompiling

/-!
# Limits in dialects without them

Two dialects have no `limit`.  In a tree whose selects count their rows by nothing but a limit,
every limit becomes a `fetch` or a `top` with the same rows, an offset gets an order where it needs
one, tests for truth become comparisons with a bit where there are no truth values, and all else
stays as it is, at every depth (`Node.Converted`).  This says what the two dialects make of such a
tree, and nothing else does (`Node.apply_converted`).
-/

namespace SqlTree

namespace Shape

/-- The clauses of a select. -/
def select? {α : Type} : Shape α → Option (Select α)
  | .selectQuery p => some p
  | _ => none

theorem select?_of_kind {s : Shape Node} (h : s.kind ≠ .selectQuery) : s.select? = none := by
  cases s with
  | selectQuery p => exact absurd rfl h
  | _ => rfl

/-- A select with a limit has no other clause that counts rows. -/
def LimitsAlone (s : Shape Node) : Prop :=
  ∀ p ∈ s.select?, p.limit.isSome = true → p.top = none ∧ p.fetch = none

instance : DecidablePred LimitsAlone := fun s =>
  inferInstanceAs (Decidable (∀ p ∈ s.select?, _))

/-- Selects without a limit, and with an order for their offset where the dialect asks for one. -/
structure Windowed (d : Dialect) (s : Shape Node) : Prop where
  limit : ∀ p ∈ s.select?, p.limit = none
  order : d = .mssql → ∀ p ∈ s.select?, p.offset.isSome = true → p.orderBy.isSome = true

theorem windowed_of_kind (d : Dialect) {s : Shape Node} (h : s.kind ≠ .selectQuery) :
    s.Windowed d where
  limit := by simp [select?_of_kind h]
  order := by simp [select?_of_kind h]

end Shape

namespace Select

/-- A select without the clauses that moving its limit may touch. -/
def frame (p : Select Node) : Select Node :=
  { p with limit := none, fetch := none, top := none, orderBy := none }

/-- What becomes of the limit of a select and of its order; the other clauses stay. -/
structure Moved (d : Dialect) (p q : Select Node) : Prop where
  frame : q.frame = p.frame
  limit : q.limit = none
  orderBy : q.orderBy =
    if d = .mssql ∧ p.offset.isSome = true then some (p.orderBy.getD anyOrder) else p.orderBy
  unlimited : p.limit = none → q.fetch = p.fetch ∧ q.top = p.top
  fetch : ∀ rows, p.limit = some ⟨.limit rows⟩ → (d = .mssql → p.offset.isSome = true) →
    q.fetch = some ⟨.fetch rows .rowsOnly⟩ ∧ q.top = none
  top : ∀ rows, p.limit = some ⟨.limit rows⟩ → d = .mssql → p.offset = none →
    q.top = some ⟨.top rows none⟩ ∧ q.fetch = none

theorem eq_of_frame_eq {p q : Select Node} (h : p.frame = q.frame) (hlimit : p.limit = q.limit)
    (hfetch : p.fetch = q.fetch) (htop : p.top = q.top) (horder : p.orderBy = q.orderBy) :
    p = q := by
  cases p
  cases q
  simp_all [frame]

/-- The clauses that are moved are known from the select. -/
theorem Moved.unique {d : Dialect} {p q r : Select Node}
    (hp : ∀ n, p.limit = some n → n.kind = .limit) (hq : p.Moved d q) (hr : p.Moved d r) :
    q = r := by
  have hwindow : q.fetch = r.fetch ∧ q.top = r.top := by
    cases hlimit : p.limit with
    | none => simp [hq.unlimited hlimit, hr.unlimited hlimit]
    | some n =>
      obtain ⟨rows, rfl⟩ := Node.exists_of_kind_limit (hp n hlimit)
      by_cases hoffset : d = .mssql → p.offset.isSome = true
      · simp [hq.fetch rows hlimit hoffset, hr.fetch rows hlimit hoffset]
      · push Not at hoffset
        have hnone : p.offset = none := by simpa using hoffset.2
        simp [hq.top rows hlimit hoffset.1 hnone, hr.top rows hlimit hoffset.1 hnone]
  exact eq_of_frame_eq (hq.frame.trans hr.frame.symm) (hq.limit.trans hr.limit.symm) hwindow.1
    hwindow.2 (hq.orderBy.trans hr.orderBy.symm)

/-- Without its limit a select asks for no order but where it has an offset. -/
theorem Moved.windowed {d : Dialect} {p q : Select Node} (h : p.Moved d q) :
    (Shape.selectQuery q).Windowed d := by
  constructor
  · rintro _ ⟨⟩
    exact h.limit
  · rintro hd _ ⟨⟩ hoffset
    have hq : q.frame.offset = p.frame.offset := congrArg _ h.frame
    rw [h.orderBy, if_pos ⟨hd, (congrArg Option.isSome hq).symm.trans hoffset⟩]
    rfl

section Paginated

variable {d : Dialect} {p : Select Node}

/-- A select without a limit keeps its clauses, but for an order for its offset. -/
theorem moved_paginate_of_none (hd : d = .mssql ∨ d = .oracle) (hlimit : p.limit = none) :
    p.Moved d (p.paginate d.pagination) := by
  have hrows : p.limitRows? = none := by rw [limitRows?, hlimit]
  have hfetch := limitAsFetch_eq_self (.inl hrows)
  have htop := limitAsTop_eq_self (.inl hrows)
  obtain rfl | rfl := hd
  · cases hoffset : p.offset with
    | none =>
      simp only [Dialect.pagination, paginate, hoffset, htop, Option.isNone_none, if_true]
      constructor <;> simp [hlimit, hoffset]
    | some n =>
      simp only [Dialect.pagination, paginate, hoffset, hfetch, Option.isNone_some]
      cases horder : p.orderBy <;> constructor <;> simp [ordered, frame, hlimit, hoffset, horder]
  · simp only [Dialect.pagination, paginate, hfetch]
    constructor <;> simp [hlimit]

/-- A limit that stands alone is moved, with an order for the offset beside it. -/
theorem moved_paginate_of_some (hd : d = .mssql ∨ d = .oracle) {rows : Node}
    (hlimit : p.limit = some ⟨.limit rows⟩) (htop : p.top = none) (hfetch : p.fetch = none) :
    p.Moved d (p.paginate d.pagination) := by
  have hrows : p.limitRows? = some rows := by rw [limitRows?, hlimit]
  obtain rfl | rfl := hd
  · cases hoffset : p.offset with
    | none =>
      constructor <;>
        simp [Dialect.pagination, paginate, limitAsTop, frame, hoffset, hrows, htop, hfetch, hlimit]
    | some n =>
      cases horder : p.orderBy <;> constructor <;>
        simp [Dialect.pagination, paginate, limitAsFetch, ordered, frame, hoffset, horder, hrows,
          htop, hfetch, hlimit]
  · constructor <;>
      simp [Dialect.pagination, paginate, limitAsFetch, frame, hrows, htop, hfetch, hlimit]

end Paginated

end Select

namespace Node

/-- What a dialect without limits makes of a tree: of selects, of tests for truth where there are no
truth values, and of all other nodes, which keep everything but their children. -/
inductive Converted (d : Dialect) : Node → Node → Prop
  | select {p q : Select Node} {g : Node → Node}
    (h : ∀ c ∈ (Shape.selectQuery p).children, Converted d c (g c)) (hq : (p.each g).Moved d q) :
    Converted d ⟨.selectQuery p⟩ ⟨.selectQuery q⟩
  | test {l l' : Node} {o o' : Operator} (hd : d = .mssql) (ho : bitOperator? o = some o')
    (b immediate : Bool) (h : Converted d l l') :
    Converted d ⟨.binaryOperation l ⟨.operator o⟩ ⟨.value (.bool b) immediate⟩⟩
      ⟨.binaryOperation l' ⟨.operator o'⟩ ⟨.value (.int (if b then 1 else 0)) true⟩⟩
  | other {s : Shape Node} {g : Node → Node} (hs : s.kind ≠ .selectQuery)
    (ht : d = .mssql → ¬ IsTest ⟨s⟩) (h : ∀ c ∈ s.children, Converted d c (g c)) :
    Converted d ⟨s⟩ ⟨s.map g⟩

section Adapted

variable {d : Dialect} (hd : d = .mssql ∨ d = .oracle)
include hd

theorem adapt_selectQuery (p : Select Node) :
    d.adapt ⟨.selectQuery p⟩ = ⟨.selectQuery (p.paginate d.pagination)⟩ := by
  obtain rfl | rfl := hd <;> rfl

theorem adapt_of_not_test {n : Node} (hs : n.kind ≠ .selectQuery)
    (ht : d = .mssql → ¬ n.IsTest) : d.adapt n = n := by
  obtain rfl | rfl := hd
  · exact Dialect.adapt_of_not_isTest _ hs (ht rfl)
  · obtain ⟨s⟩ := n
    cases s with
    | selectQuery p => exact absurd rfl hs
    | _ => rfl

/-- A rewritten node that is neither a select nor a test keeps all but its children. -/
theorem rewrite_adapt_other {s : Shape Node} (hs : s.kind ≠ .selectQuery)
    (ht : d = .mssql → ¬ IsTest ⟨s⟩) :
    rewrite d.adapt ⟨s⟩ = ⟨s.map (rewrite d.adapt)⟩ := by
  rw [rewrite_mk]
  apply adapt_of_not_test hd
  · exact fun h => hs ((Shape.kind_map _ s).symm.trans h)
  · intro hmssql h
    have hkeeps : KeepsTests (rewrite d.adapt) :=
      keepsTests_rewrite d.kind_adapt (fun _ => d.adapt_eq_self nofun nofun)
        fun _ i => ⟨i, d.adapt_eq_self nofun nofun⟩
    exact ht hmssql ((isTest_map hkeeps s).mp h)

/-- Once its children are rewritten, the limit of a select is moved. -/
theorem moved_paginate_each {p : Select Node} (hw : p.node.wellFormed = true)
    (halone : (Shape.selectQuery p).LimitsAlone) :
    (p.each (rewrite d.adapt)).Moved d ((p.each (rewrite d.adapt)).paginate d.pagination) := by
  cases hlimit : p.limit with
  | none => exact Select.moved_paginate_of_none hd (by simp [Select.each, hlimit])
  | some n =>
    obtain ⟨rows, rfl⟩ := exists_of_kind_limit (Select.kind_of_limit hw hlimit)
    obtain ⟨htop, hfetch⟩ := halone p rfl (by rw [hlimit]; rfl)
    have hrows : rewrite d.adapt ⟨.limit rows⟩ = ⟨.limit (rows.rewrite d.adapt)⟩ := by
      apply d.rewrite_adapt_mk (s := .limit rows) <;> simp [Shape.kind]
    exact Select.moved_paginate_of_some hd (by rw [Select.each, hlimit, Option.map_some, hrows])
      (by rw [Select.each, htop, Option.map_none]) (by rw [Select.each, hfetch, Option.map_none])

theorem converted_rewrite_adapt {n : Node} (hw : n.wellFormed = true)
    (hn : n.Every Shape.LimitsAlone) : n.Converted d (n.rewrite d.adapt) := by
  induction n using childrenInduction with
  | h s ih =>
    obtain ⟨halone, hchildren⟩ := every_mk.mp hn
    replace ih : ∀ c ∈ s.children, c.Converted d (c.rewrite d.adapt) := fun c hc =>
      ih c hc (wellFormed_of_mem_children hw hc) (hchildren c hc)
    by_cases hs : s.kind = .selectQuery
    · cases s with
      | selectQuery p =>
        rw [rewrite_mk, Shape.map_eq_each, Shape.each, adapt_selectQuery hd]
        exact .select ih (moved_paginate_each hd hw halone)
      | _ => cases hs
    · by_cases ht : d = .mssql ∧ IsTest ⟨s⟩
      · obtain ⟨rfl, ht⟩ := ht
        cases ht with
        | mk l ho b immediate =>
          rw [Dialect.rewrite_adapt_test l ho]
          exact .test rfl ho b immediate (ih l List.mem_cons_self)
      · have ht : d = .mssql → ¬ IsTest ⟨s⟩ := fun h h' => ht ⟨h, h'⟩
        rw [rewrite_adapt_other hd hs ht]
        exact .other hs ht ih

theorem Converted.eq_rewrite {n m : Node} (h : n.Converted d m) (hw : n.wellFormed = true)
    (hn : n.Every Shape.LimitsAlone) : m = n.rewrite d.adapt := by
  induction h with
  | @select p q g h hq ih =>
    obtain ⟨halone, hchildren⟩ := every_mk.mp hn
    have hg : (Shape.selectQuery p).map g = (Shape.selectQuery p).map (rewrite d.adapt) :=
      Shape.map_congr _ fun c hc => ih c hc (wellFormed_of_mem_children hw hc) (hchildren c hc)
    rw [Shape.map_eq_each, Shape.map_eq_each] at hg
    injection hg with hg
    rw [hg] at hq
    have hkind : ∀ n, (p.each (rewrite d.adapt)).limit = some n → n.kind = .limit := by
      intro n hlimit
      obtain ⟨n', hn', rfl⟩ := Option.map_eq_some_iff.mp hlimit
      rw [kind_rewrite d.kind_adapt]
      exact Select.kind_of_limit hw hn'
    rw [rewrite_mk, Shape.map_eq_each, Shape.each, adapt_selectQuery hd,
      hq.unique hkind (moved_paginate_each hd hw halone)]
  | test hmssql ho b immediate h ih =>
    subst hmssql
    obtain ⟨-, hchildren⟩ := every_mk.mp hn
    rw [Dialect.rewrite_adapt_test _ ho, ih (wellFormed_of_mem_children hw List.mem_cons_self)
      (hchildren _ List.mem_cons_self)]
  | @other s g hs ht h ih =>
    obtain ⟨-, hchildren⟩ := every_mk.mp hn
    rw [rewrite_adapt_other hd hs ht, Shape.map_congr s fun c hc =>
      ih c hc (wellFormed_of_mem_children hw hc) (hchildren c hc)]

omit hd in
theorem every_windowed_of_children {s : Shape Node} (hs : (s.kind == .selectQuery) = false)
    (h : ∀ c ∈ s.children, c.Every (Shape.Windowed d)) : Every (Shape.Windowed d) ⟨s⟩ :=
  every_mk.mpr ⟨Shape.windowed_of_kind d (ne_of_beq_false hs), h⟩

omit hd in
theorem every_windowed_placed {p : Select Node}
    (h : ∀ c ∈ (Shape.selectQuery p).children, c.Every (Shape.Windowed d)) {x : Slot × Node}
    (hx : Select.Placed p x) : x.2.Every (Shape.Windowed d) := by
  have hrows : ∀ rows : Node, p.limit = some ⟨.limit rows⟩ → rows.Every (Shape.Windowed d) := by
    intro rows hlimit
    have hmem : (⟨.limit rows⟩ : Node) ∈ (Shape.selectQuery p).children := by
      simp [Shape.children, Shape.fields, Select.fields, Field.toList, hlimit]
    exact (every_mk.mp (h _ hmem)).2 rows List.mem_cons_self
  cases hx with
  | fetch hlimit =>
    exact every_windowed_of_children rfl (List.forall_mem_singleton.mpr (hrows _ hlimit))
  | top hlimit =>
    exact every_windowed_of_children rfl (List.forall_mem_singleton.mpr (hrows _ hlimit))
  | anyOrder =>
    refine every_windowed_of_children rfl (List.forall_mem_singleton.mpr ?_)
    refine every_windowed_of_children rfl (List.forall_mem_singleton.mpr ?_)
    exact every_windowed_of_children rfl (List.forall_mem_nil _)

/-- What a dialect without limits makes of a tree has none. -/
theorem every_windowed_rewrite_adapt {n : Node} (hw : n.wellFormed = true)
    (hn : n.Every Shape.LimitsAlone) : (n.rewrite d.adapt).Every (Shape.Windowed d) := by
  induction n using childrenInduction with
  | h s ih =>
    obtain ⟨halone, hchildren⟩ := every_mk.mp hn
    replace ih : ∀ c ∈ (s.map (rewrite d.adapt)).children, c.Every (Shape.Windowed d) := by
      rw [Shape.children_map, List.forall_mem_map]
      exact fun c hc => ih c hc (wellFormed_of_mem_children hw hc) (hchildren c hc)
    by_cases hs : s.kind = .selectQuery
    · cases s with
      | selectQuery p =>
        have hmoved := moved_paginate_each hd hw halone
        rw [Shape.map_eq_each, Shape.each] at ih
        rw [rewrite_mk, Shape.map_eq_each, Shape.each, adapt_selectQuery hd]
        refine every_mk.mpr ⟨hmoved.windowed, ?_⟩
        rw [← Shape.map_snd_slotted, List.forall_mem_map]
        intro x hx
        obtain hx | hx := Select.mem_slotted_paginate _ hx
        · exact ih x.2 (Shape.mem_children_of_mem_slotted hx)
        · exact every_windowed_placed ih hx
      | _ => cases hs
    · by_cases ht : d = .mssql ∧ IsTest ⟨s⟩
      · obtain ⟨rfl, ht⟩ := ht
        cases ht with
        | mk l ho b immediate =>
          rw [Dialect.rewrite_adapt_test l ho]
          refine every_windowed_of_children rfl (List.forall_mem_cons.mpr ⟨?_, ?_⟩)
          · exact ih _ (by rw [Shape.children_map]; exact List.mem_cons_self)
          · refine List.forall_mem_cons.mpr ⟨?_, List.forall_mem_singleton.mpr ?_⟩
            · exact every_windowed_of_children rfl (List.forall_mem_nil _)
            · exact every_windowed_of_children rfl (List.forall_mem_nil _)
      · rw [rewrite_adapt_other hd hs fun h h' => ht ⟨h, h'⟩]
        exact every_windowed_of_children (beq_eq_false_iff_ne.mpr (by rwa [Shape.kind_map])) ih

/-- In a tree whose limits stand alone, a dialect without limits moves every limit and leaves
everything else as it is, and of all trees it makes this one. -/
theorem apply_converted {n : Node} (hw : n.wellFormed = true) (hn : n.Every Shape.LimitsAlone) :
    ∃ m, d.apply n = .ok m ∧ m.Every (Shape.Windowed d) ∧ ∀ m', n.Converted d m' ↔ m' = m := by
  refine ⟨_, d.apply_eq_rewrite hw, every_windowed_rewrite_adapt hd hw hn, fun m' => ?_⟩
  constructor
  · exact fun h => h.eq_rewrite hd hw hn
  · rintro rfl
    exact converted_rewrite_adapt hd hw hn

end Adapted

/-- A limit below an offset and a limit of its own, beside a test for truth. -/
theorem apply_converted_derived :
    let inner (window : Select Node) : Node := .named ⟨.selectQuery { window with
      selections := [⟨.selection ⟨.selectAll⟩⟩]
      fromClause := some ⟨.fromClause [.table none "person"]⟩ }⟩ "p"
    let n : Node := ⟨.selectQuery {
      fromClause := some ⟨.fromClause [inner { limit := some ⟨.limit ⟨.value (.int 5) false⟩⟩ }]⟩
      whereClause := some ⟨.whereClause ⟨.binaryOperation (.column "active") ⟨.operator .isNot⟩
        ⟨.value (.bool true) true⟩⟩⟩
      limit := some ⟨.limit ⟨.value (.int 10) false⟩⟩
      offset := some ⟨.offset ⟨.value (.int 20) false⟩⟩ }⟩
    let m : Node := ⟨.selectQuery {
      fromClause := some ⟨.fromClause [inner { top := some ⟨.top ⟨.value (.int 5) false⟩ none⟩ }]⟩
      whereClause := some ⟨.whereClause ⟨.binaryOperation (.column "active") ⟨.operator .notEqual⟩
        ⟨.value (.int 1) true⟩⟩⟩
      orderBy := some Select.anyOrder
      fetch := some ⟨.fetch ⟨.value (.int 10) false⟩ .rowsOnly⟩
      offset := some ⟨.offset ⟨.value (.int 20) false⟩⟩ }⟩
    n.wellFormed = true ∧ n.Every Shape.LimitsAlone ∧ Dialect.apply .mssql n = .ok m ∧
      m.Every (Shape.Windowed .mssql) ∧ ∀ m', n.Converted .mssql m' ↔ m' = m := by
  intro inner n m
  have hw : n.wellFormed = true := by decide
  have hn : n.Every Shape.LimitsAlone := by decide
  obtain ⟨m', hm', hwindowed, hconverted⟩ := apply_converted (.inl rfl) hw hn
  have hm : Dialect.apply .mssql n = .ok m := rfl
  cases hm.symm.trans hm'
  exact ⟨hw, hn, hm, hwindowed, hconverted⟩

end Node

end SqlTree
