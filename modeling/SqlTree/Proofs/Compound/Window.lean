import Mathlib.Data.Bool.Count
import Mathlib.Data.Multiset.Basic
import SqlTree.Proofs.Compound.Rows
import SqlTree.Proofs.Pass.Adapting

/-!
# The rows of a select in a window

A select takes the rows of its core, combines them with those of its set operands, orders them and
keeps a window of them.  A limit, an offset and a fetch are about the whole; a top clause is about
the core it is written in.  Where a limit becomes a fetch the rows stay the same.  Where it becomes
a top clause they stay the same only if the core is the whole
(`Select.rows_paginate_topOrFetch_iff`).
-/

namespace SqlTree

/-- What a database does with the parts of a select that are not told apart here: the numbers of
rows, orders, and how the rows of a set operation are listed. -/
structure Engine (Row : Type) [DecidableEq Row] where
  number : Node → Nat
  order : Node → List Row → List Row
  combine : Combination → List Row → List Row → List Row
  top : Nat → Option TopModifier → List Row → List Row
  fetch : Nat → FetchModifier → List Row → List Row
  order_perm : ∀ n rows, (order n rows).Perm rows
  order_anyOrder : ∀ rows, order Select.anyOrder rows = rows
  coe_combine : ∀ o s t, (combine o s t : Multiset Row) = o.rows s t
  top_none : ∀ n rows, top n none rows = rows.take n
  fetch_rowsOnly : ∀ n rows, fetch n .rowsOnly rows = rows.take n

namespace Engine

variable {Row : Type} [DecidableEq Row] (E : Engine Row)

def ordered : Option Node → List Row → List Row
  | some n, rows => E.order n rows
  | none, rows => rows

def limited : Option Node → List Row → List Row
  | some ⟨.limit n⟩, rows => rows.take (E.number n)
  | _, rows => rows

def skipped : Option Node → List Row → List Row
  | some ⟨.offset n⟩, rows => rows.drop (E.number n)
  | _, rows => rows

def fetched : Option Node → List Row → List Row
  | some ⟨.fetch n modifier⟩, rows => E.fetch (E.number n) modifier rows
  | _, rows => rows

def topped : Option Node → List Row → List Row
  | some ⟨.top n modifier⟩, rows => E.top (E.number n) modifier rows
  | _, rows => rows

/-- The rows after one set operation with the rows of its operand. -/
def combined (rows : List Row) : Node × List Row → List Row
  | (⟨.setOperation operator _ all⟩, operand) => E.combine ⟨operator, all⟩ rows operand
  | _ => rows

def window (p : Select Node) (rows : List Row) : List Row :=
  E.fetched p.fetch (E.limited p.limit (E.skipped p.offset rows))

/-- The rows of a select, by those of its core and of its set operands.  Without set operations the
order is that of the core, and the top clause takes the first rows in that order. -/
def rows (p : Select Node) (core : List Row) (operands : List (List Row)) : List Row :=
  E.window p <|
    if p.setOperations.isEmpty then E.topped p.top (E.ordered p.orderBy core)
    else E.ordered p.orderBy
      ((p.setOperations.zip operands).foldl E.combined (E.topped p.top core))

end Engine

namespace Node

theorem exists_of_kind_setOperation {n : Node} (h : n.kind = .setOperation) :
    ∃ operator e all, n = ⟨.setOperation operator e all⟩ := by
  obtain ⟨s⟩ := n
  cases s with
  | setOperation operator e all => exact ⟨operator, e, all, rfl⟩
  | _ => cases h

theorem exists_of_kind_limit {n : Node} (h : n.kind = .limit) : ∃ rows, n = ⟨.limit rows⟩ := by
  obtain ⟨s⟩ := n
  cases s with
  | limit rows => exact ⟨rows, rfl⟩
  | _ => cases h

end Node

namespace Select

variable {p : Select Node}

theorem kind_of_setOperations (h : p.node.wellFormed = true) {n : Node}
    (hn : n ∈ p.setOperations) : n.kind = .setOperation := by
  have hs : (Slot.only .setOperation, n) ∈ (Shape.selectQuery p).slotted := by
    simp [Shape.slotted, Shape.fields, Select.fields, hn]
  exact (eq_of_beq (Node.wellFormed_mk_iff.mp h _ hs).1).symm

theorem kind_of_limit (h : p.node.wellFormed = true) {n : Node} (hn : p.limit = some n) :
    n.kind = .limit := by
  have hs : (Slot.only .limit, n) ∈ (Shape.selectQuery p).slotted := by
    simp [Shape.slotted, Shape.fields, Select.fields, hn]
  exact (eq_of_beq (Node.wellFormed_mk_iff.mp h _ hs).1).symm

section Rewritten

variable {Row : Type} [DecidableEq Row] (E : Engine Row) (core : List Row)
  (operands : List (List Row))

/-- An order that asks for nothing may be added. -/
theorem rows_ordered : E.rows p.ordered core operands = E.rows p core operands := by
  unfold Select.ordered
  cases hp : p.orderBy with
  | none => simp [Engine.rows, Engine.window, hp, E.order_anyOrder, Engine.ordered]
  | some n => rfl

/-- A fetch keeps the rows of the limit it takes the place of. -/
theorem rows_limitAsFetch (hfetch : p.fetch = none) :
    E.rows p.limitAsFetch core operands = E.rows p core operands := by
  unfold limitAsFetch
  rw [hfetch]
  cases hp : p.limitRows? with
  | none => rfl
  | some n =>
    have hlimit := limit_of_limitRows? hp
    simp [Engine.rows, Engine.window, hlimit, hfetch, Engine.limited, Engine.fetched,
      E.fetch_rowsOnly]

/-- A top clause keeps the rows of the limit it takes the place of if the core is the whole. -/
theorem rows_limitAsTop (htop : p.top = none) (hoffset : p.offset = none)
    (hset : p.setOperations = []) :
    E.rows p.limitAsTop core operands = E.rows p core operands := by
  unfold limitAsTop
  rw [htop]
  cases hp : p.limitRows? with
  | none => rfl
  | some n =>
    have hlimit := limit_of_limitRows? hp
    simp [Engine.rows, Engine.window, hlimit, htop, hoffset, hset, Engine.limited, Engine.skipped,
      Engine.topped, E.top_none]

theorem limitAsTop_of_limit_none (h : p.limit = none) : p.limitAsTop = p := by
  simp [limitAsTop, limitRows?, h]

theorem rows_paginate_topOrFetch (htop : p.top = none) (hfetch : p.fetch = none)
    (h : p.limit = none ∨ p.offset.isSome = true ∨ p.setOperations = []) :
    E.rows (p.paginate .topOrFetch) core operands = E.rows p core operands := by
  unfold paginate
  cases hoffset : p.offset with
  | some n =>
    show E.rows p.limitAsFetch.ordered core operands = _
    rw [rows_ordered, rows_limitAsFetch E core operands hfetch]
  | none =>
    show E.rows p.limitAsTop core operands = _
    rw [hoffset] at h
    obtain hlimit | hsome | hset := h
    · rw [limitAsTop_of_limit_none hlimit]
    · cases hsome
    · exact rows_limitAsTop E core operands htop hoffset hset

end Rewritten

end Select

/-! ## Rows that a top clause loses

Every number is one, and the core has two rows.  The first set operation gets an operand that shows
whether the core was cut, the others get operands that change nothing. -/

namespace Combination

/-- How often an operand that changes nothing holds each row. -/
def neutral (o : Combination) : Nat := if o.operator = .intersect then 1 else 0

theorem count_neutral (o : Combination) {m : Nat} (h : m ≤ 1) : o.count m o.neutral = m := by
  obtain ⟨operator, all⟩ := o
  cases operator <;> cases all <;> simp [count, neutral, h]

theorem count_neutral_pos (o : Combination) {m : Nat} (h : 0 < m) : 0 < o.count m o.neutral := by
  obtain ⟨operator, all⟩ := o
  cases operator <;> cases all <;> simp [count, neutral] <;> omega

end Combination

namespace Engine

/-- An engine for which every number is one. -/
noncomputable def single : Engine Bool where
  number _ := 1
  order _ rows := rows
  combine o s t := (o.rows s t).toList
  top n _ rows := rows.take n
  fetch n _ rows := rows.take n
  order_perm _ _ := .rfl
  order_anyOrder _ := rfl
  coe_combine _ _ _ := Multiset.coe_toList _
  top_none _ _ := rfl
  fetch_rowsOnly _ _ := rfl

@[simp] theorem single_number (n : Node) : single.number n = 1 := rfl

@[simp] theorem single_top (n : Nat) (m : Option TopModifier) (rows : List Bool) :
    single.top n m rows = rows.take n := rfl

@[simp] theorem single_ordered (o : Option Node) (rows : List Bool) :
    single.ordered o rows = rows := by
  cases o <;> rfl

theorem count_combined (rows operand : List Bool) (o : SetOperator) (e : Node) (all r : Bool) :
    (single.combined rows (⟨.setOperation o e all⟩, operand)).count r =
      Combination.count ⟨o, all⟩ (rows.count r) (operand.count r) := by
  have h := congrArg (Multiset.count r) (single.coe_combine ⟨o, all⟩ rows operand)
  simp only [Combination.count_rows, Multiset.coe_count] at h
  exact h

/-- An operand that changes nothing. -/
def neutralRows : Node → List Bool
  | ⟨.setOperation operator _ all⟩ =>
    .replicate (Combination.neutral ⟨operator, all⟩) false ++
      .replicate (Combination.neutral ⟨operator, all⟩) true
  | _ => []

theorem count_neutralRows (o : SetOperator) (e : Node) (all r : Bool) :
    (neutralRows ⟨.setOperation o e all⟩).count r = Combination.neutral ⟨o, all⟩ := by
  cases r <;> simp [neutralRows, List.count_replicate]

section Neutral

variable {ns : List Node} (hns : ∀ n ∈ ns, n.kind = .setOperation)
include hns

/-- Rows that are not repeated stay as often as they are. -/
theorem count_foldl_neutral {rows : List Bool} (h : ∀ r, rows.count r ≤ 1) (r : Bool) :
    ((ns.zip (ns.map neutralRows)).foldl single.combined rows).count r = rows.count r := by
  induction ns generalizing rows with
  | nil => rfl
  | cons n ns ih =>
    obtain ⟨o, e, all, rfl⟩ := Node.exists_of_kind_setOperation (hns n List.mem_cons_self)
    have hstep : ∀ r, (single.combined rows (⟨.setOperation o e all⟩,
        neutralRows ⟨.setOperation o e all⟩)).count r = rows.count r := by
      intro r
      rw [count_combined, count_neutralRows, Combination.count_neutral _ (h r)]
    have hrest := ih (fun n hn => hns n (List.mem_cons_of_mem _ hn))
      fun r => (hstep r).le.trans (h r)
    exact hrest.trans (hstep r)

/-- A row that is there stays there. -/
theorem mem_foldl_neutral {rows : List Bool} {r : Bool} (h : r ∈ rows) :
    r ∈ (ns.zip (ns.map neutralRows)).foldl single.combined rows := by
  induction ns generalizing rows with
  | nil => exact h
  | cons n ns ih =>
    obtain ⟨o, e, all, rfl⟩ := Node.exists_of_kind_setOperation (hns n List.mem_cons_self)
    refine ih (fun n hn => hns n (List.mem_cons_of_mem _ hn)) (List.count_pos_iff.mp ?_)
    rw [count_combined, count_neutralRows]
    exact Combination.count_neutral_pos _ (List.count_pos_iff.mpr h)

end Neutral

/-- An operand that shows whether a core of two rows was cut to its first one. -/
def tellingRows (o : SetOperator) : List Bool := if o = .except then [false] else [true]

/-- The second row is there if the core was not cut. -/
theorem mem_combined_telling (o : SetOperator) (e : Node) (all : Bool) :
    true ∈ single.combined [false, true] (⟨.setOperation o e all⟩, tellingRows o) := by
  rw [← List.count_pos_iff, count_combined]
  cases o <;> cases all <;> decide

/-- Cut to its first row the core gives both rows or none. -/
theorem count_combined_telling (o : SetOperator) (e : Node) (all r : Bool) :
    (single.combined [false] (⟨.setOperation o e all⟩, tellingRows o)).count r =
      if o = .union then 1 else 0 := by
  rw [count_combined]
  cases o <;> cases all <;> cases r <;> decide

end Engine

namespace Select

variable {p : Select Node}

/-- A limit that is moved into the core of a compound select loses rows or lets others in. -/
theorem exists_rows_limitAsTop_ne (h : p.node.wellFormed = true) (htop : p.top = none)
    (hfetch : p.fetch = none) (hlimit : p.limit ≠ none) (hoffset : p.offset = none)
    (hset : p.setOperations ≠ []) :
    ∃ operands, operands.length = p.setOperations.length ∧
      Engine.single.rows p.limitAsTop [false, true] operands ≠
        Engine.single.rows p [false, true] operands := by
  obtain ⟨l, hl⟩ := Option.ne_none_iff_exists'.mp hlimit
  obtain ⟨n, rfl⟩ := Node.exists_of_kind_limit (kind_of_limit h hl)
  obtain ⟨m, ns, hm⟩ := List.exists_cons_of_ne_nil hset
  have hkind : ∀ m ∈ p.setOperations, m.kind = .setOperation := fun _ => kind_of_setOperations h
  rw [hm] at hkind
  obtain ⟨o, e, all, rfl⟩ := Node.exists_of_kind_setOperation (hkind m List.mem_cons_self)
  have hns : ∀ m ∈ ns, m.kind = .setOperation := fun m hm => hkind m (List.mem_cons_of_mem _ hm)
  refine ⟨Engine.tellingRows o :: ns.map Engine.neutralRows, by simp [hm], fun heq => ?_⟩
  let operation : Node × List Bool := (⟨.setOperation o e all⟩, Engine.tellingRows o)
  let rest := ns.zip (ns.map Engine.neutralRows)
  -- Cut after all operations there is one row.
  have hwhole : ((operation :: rest).foldl Engine.single.combined [false, true]).take 1 ≠ [] := by
    have hmem := Engine.mem_foldl_neutral hns (Engine.mem_combined_telling o e all)
    simpa using List.ne_nil_of_mem hmem
  -- Cut before them there are two or none.
  have hcut : ((operation :: rest).foldl Engine.single.combined [false]).length =
      if o = .union then 2 else 0 := by
    have hcount := Engine.count_combined_telling o e all
    have hle : ∀ r, (Engine.single.combined [false] operation).count r ≤ 1 := by
      intro r
      rw [hcount]
      split <;> omega
    rw [← List.count_false_add_count_true, List.foldl_cons, Engine.count_foldl_neutral hns hle,
      Engine.count_foldl_neutral hns hle, hcount, hcount]
    split <;> rfl
  have hrows : (operation :: rest).foldl Engine.single.combined [false] =
      ((operation :: rest).foldl Engine.single.combined [false, true]).take 1 := by
    simpa [Engine.rows, Engine.window, limitAsTop, limitRows?, htop, hfetch, hl, hoffset, hm,
      Engine.fetched, Engine.limited, Engine.skipped, Engine.topped] using heq
  have hlength := congrArg List.length hrows
  have hpos := List.length_pos_iff.mpr hwhole
  rw [hcut, List.length_take] at hlength
  rw [List.length_take] at hpos
  split at hlength <;> omega

/-- The window of a select is kept exactly if a limit without an offset is that of a single core. -/
theorem rows_paginate_topOrFetch_iff (h : p.node.wellFormed = true) (htop : p.top = none)
    (hfetch : p.fetch = none) :
    (∀ (Row : Type) [DecidableEq Row] (E : Engine Row) (core : List Row)
      (operands : List (List Row)), operands.length = p.setOperations.length →
        E.rows (p.paginate .topOrFetch) core operands = E.rows p core operands) ↔
      p.limit = none ∨ p.offset.isSome = true ∨ p.setOperations = [] := by
  constructor
  · intro hrows
    by_contra hne
    obtain ⟨hlimit, hoffset, hset⟩ : p.limit ≠ none ∧ p.offset = none ∧ p.setOperations ≠ [] := by
      simpa using hne
    obtain ⟨operands, hlength, hne⟩ :=
      exists_rows_limitAsTop_ne h htop hfetch hlimit hoffset hset
    apply hne
    have hpaginate : p.paginate .topOrFetch = p.limitAsTop := by simp [paginate, hoffset]
    rw [← hpaginate]
    exact hrows Bool Engine.single [false, true] operands hlength
  · intro h Row _ E core operands _
    exact rows_paginate_topOrFetch E core operands htop hfetch h

/-- With an offset beside it a limit of the rows of two tables becomes a fetch, and keeps them. -/
theorem rows_paginate_union_offset :
    let p := (((allOf "a").combined .union (allOf "b").node true).limited
      (.value (.int 10))).skipping (.value (.int 5))
    p.node.wellFormed = true ∧ p.top = none ∧ p.fetch = none ∧
      ∀ (Row : Type) [DecidableEq Row] (E : Engine Row) (core : List Row)
        (operands : List (List Row)), operands.length = p.setOperations.length →
          E.rows (p.paginate .topOrFetch) core operands = E.rows p core operands := by
  intro p
  have h : p.node.wellFormed = true := by decide
  exact ⟨h, rfl, rfl, (rows_paginate_topOrFetch_iff h rfl rfl).mpr (.inr (.inl rfl))⟩

/-- One row of all that are in either table: cut before the union, there are two. -/
theorem length_rows_paginate_union :
    let p := ((allOf "a").combined .union (allOf "b").node true).limited (.value (.int 1))
    p.top = none ∧ p.fetch = none ∧
      (Engine.single.rows p [false, true] [[true]]).length = 1 ∧
      (Engine.single.rows (p.paginate .topOrFetch) [false, true] [[true]]).length = 2 := by
  intro p
  have hcombine : ∀ s t : List Bool,
      (Engine.single.combine ⟨.union, true⟩ s t).length = s.length + t.length := by
    intro s t
    show ((s : Multiset Bool) + (t : Multiset Bool)).toList.length = s.length + t.length
    rw [Multiset.length_toList, Multiset.card_add, Multiset.coe_card, Multiset.coe_card]
  refine ⟨rfl, rfl, ?_, hcombine [false] [true]⟩
  have hlength := List.length_take (i := 1)
    (l := Engine.single.combine ⟨.union, true⟩ [false, true] [true])
  rw [hcombine] at hlength
  exact hlength

end Select

end SqlTree
