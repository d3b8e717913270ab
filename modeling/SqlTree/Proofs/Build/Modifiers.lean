import SqlTree.Proofs.Read.References
import SqlTree.Proofs.Render.Modifiers
import SqlTree.Build.Select

/-!
# Calls that add modifiers

Calls that add modifiers to a select commute unless they add them to one class of one list, as the
modifiers in a tree do (`modifiers_commute`).
-/

namespace SqlTree

/-- A call that adds a modifier to a select. -/
inductive ModifierCall where
  | known (m : SelectModifier)
  | lockOf (tables : List String)
  | front (n : Node)
  | back (n : Node)

namespace ModifierCall

def run (p : Select Node) : ModifierCall → Except Error (Select Node)
  | .known m => .ok (p.modifier m)
  | .lockOf tables => p.forUpdateOf tables
  | .front n => .ok (p.modifyFront n)
  | .back n => .ok (p.modifyBack n)

/-- Whether the modifier stands in front, and its class. -/
def place : ModifierCall → Bool × Nat
  | .known m => (m = .distinct, m.priority)
  | .lockOf _ => (false, 1)
  | .front _ => (true, 3)
  | .back _ => (false, 3)

/-- The failure to read a table that is locked. -/
def failure? : ModifierCall → Option Error
  | .lockOf tables =>
    match tables.mapM Read.table with
    | .ok _ => none
    | .error e => some e
  | _ => none

/-- The modifier that is added by a call that does not fail. -/
def modifier : ModifierCall → Node
  | .known m => ⟨.selectModifier (some m) none []⟩
  | .lockOf tables =>
    ⟨.selectModifier (some .forUpdate) none ((tables.mapM Read.table).toOption.getD [])⟩
  | .front n => ⟨.selectModifier none (some n) []⟩
  | .back n => ⟨.selectModifier none (some n) []⟩

theorem modifierPriority_modifier (c : ModifierCall) :
    Layout.modifierPriority c.modifier = c.place.2 := by
  cases c <;> rfl

theorem run_eq (p : Select Node) (c : ModifierCall) :
    run p c = match c.failure? with
      | some e => .error e
      | none => .ok (if c.place.1 then p.front c.modifier else p.back c.modifier) := by
  cases c with
  | known m => cases m <;> rfl
  | lockOf tables =>
    rw [run, Select.forUpdateOf, failure?, modifier]
    cases tables.mapM Read.table <;> rfl
  | front n => rfl
  | back n => rfl

/-- The modifiers that calls add in front, or at the end. -/
def added (front : Bool) (cs : List ModifierCall) : List Node :=
  (cs.filter fun c => c.place.1 == front).map modifier

/-- Modifiers go to the two lists in the order of their calls, unless one of the calls fails. -/
theorem foldlM_run (p : Select Node) (cs : List ModifierCall) :
    cs.foldlM run p = match cs.findSome? failure? with
      | some e => .error e
      | none => .ok (p.withModifiers (p.frontModifiers ++ added true cs)
          (p.endModifiers ++ added false cs)) := by
  induction cs generalizing p with
  | nil =>
    show Except.ok p = .ok (p.withModifiers (p.frontModifiers ++ []) (p.endModifiers ++ []))
    rw [List.append_nil, List.append_nil, Select.withModifiers]
  | cons c cs ih =>
    rw [List.foldlM_cons, run_eq, List.findSome?_cons]
    cases hc : c.failure? with
    | some e => rfl
    | none =>
      show List.foldlM run _ cs = _
      rw [ih]
      cases cs.findSome? failure? with
      | some e => rfl
      | none =>
        cases hplace : c.place.1 <;>
          simp [added, hplace, Select.front, Select.back, Select.withModifiers]

theorem place_of_failure? {c : ModifierCall} {e : Error} (h : c.failure? = some e) :
    c.place = (false, 1) := by
  cases c with
  | lockOf tables => rfl
  | _ => cases h

/-- Only calls at one place fail, so the first failure is found among them. -/
theorem findSome?_failure? (cs : List ModifierCall) : cs.findSome? failure? =
    (cs.filter fun c => c.place == (false, 1)).findSome? failure? := by
  induction cs with
  | nil => rfl
  | cons c cs ih =>
    cases hc : c.failure? with
    | some e =>
      have hplace : (c.place == (false, 1)) = true := beq_iff_eq.mpr (place_of_failure? hc)
      rw [List.filter_cons, if_pos hplace, List.findSome?_cons, List.findSome?_cons, hc]
    | none =>
      rw [List.findSome?_cons, hc, List.filter_cons]
      by_cases hplace : c.place == (false, 1)
      · rw [if_pos hplace, List.findSome?_cons, hc]
        exact ih
      · rw [if_neg hplace]
        exact ih

section SamePlaces

variable {cs cs' : List ModifierCall} (h : Layout.SameClasses place cs cs')
include h

theorem findSome?_failure?_eq : cs.findSome? failure? = cs'.findSome? failure? := by
  rw [findSome?_failure? cs, findSome?_failure? cs', h]

theorem sameClasses_added (front : Bool) :
    Layout.SameClasses Layout.modifierPriority (added front cs) (added front cs') := by
  have hplaces : Layout.SameClasses (fun c : ModifierCall => c.place.2)
      (cs.filter fun c => c.place.1 == front) (cs'.filter fun c => c.place.1 == front) := by
    intro k
    have hplace : ∀ c : ModifierCall, (c.place.2 == k && c.place.1 == front) =
        (c.place == (front, k)) := fun c => Bool.and_comm _ _
    simp only [List.filter_filter, hplace, h (front, k)]
  exact hplaces.map modifierPriority_modifier

end SamePlaces

/-- What the calls compile to. -/
def statement (d : Dialect) (p : Select Node) (cs : List ModifierCall) :
    Except Error (String × List Value) :=
  (cs.foldlM run p).bind fun q => q.node.statement d

/-- The raw fragment of a call is well formed. -/
def wellFormed : ModifierCall → Bool
  | .front n => n.wellFormed
  | .back n => n.wellFormed
  | _ => true

theorem wellFormed_selectModifier {m : Option SelectModifier} {fragment : Option Node}
    {tables : List Node} (hfragment : ∀ n ∈ fragment, n.wellFormed = true)
    (htables : ∀ n ∈ tables, n.wellFormed = true) :
    Node.wellFormed ⟨.selectModifier m fragment tables⟩ = true := by
  refine Node.wellFormed_mk_iff.mpr fun x hx => ?_
  have hword : (Field.optionalWord m : Field Node).slotted = [] := by
    cases m <;> rfl
  simp only [Shape.slotted, Shape.fields, List.flatMap_cons, List.flatMap_nil, hword] at hx
  simp only [Field.slotted, List.nil_append, List.append_nil, List.mem_append, List.mem_map,
    Option.mem_toList] at hx
  obtain ⟨n, hn, rfl⟩ | ⟨n, hn, rfl⟩ := hx
  · exact ⟨rfl, hfragment n hn⟩
  · exact ⟨rfl, htables n hn⟩

theorem wellFormed_modifier {c : ModifierCall} (h : c.wellFormed = true) :
    c.modifier.kind = .selectModifier ∧ c.modifier.wellFormed = true := by
  cases c with
  | known m => exact ⟨rfl, rfl⟩
  | lockOf tables =>
    refine ⟨rfl, wellFormed_selectModifier nofun ?_⟩
    cases ht : tables.mapM Read.table with
    | error e => exact nofun
    | ok ns =>
      exact forall_mem_of_mapM_eq_ok (fun hs => (Read.table_eq_ok_iff.mp hs).2.wellFormed) ht
  | front n => exact ⟨rfl, wellFormed_selectModifier (fun _ hm => Option.some.inj hm ▸ h) nofun⟩
  | back n => exact ⟨rfl, wellFormed_selectModifier (fun _ hm => Option.some.inj hm ▸ h) nofun⟩

theorem wellFormed_added {cs : List ModifierCall} (hcs : ∀ c ∈ cs, c.wellFormed = true)
    (front : Bool) : ∀ m ∈ added front cs, m.kind = .selectModifier ∧ m.wellFormed = true := by
  intro m hm
  obtain ⟨c, hc, rfl⟩ := List.mem_map.mp hm
  exact wellFormed_modifier (hcs c (List.mem_filter.mp hc).1)

/-- Calls at different places can be made in any order. -/
theorem statement_of_sameClasses (d : Dialect) {p : Select Node} {cs cs' : List ModifierCall}
    (hp : p.node.wellFormed = true) (hcs : ∀ c ∈ cs, c.wellFormed = true)
    (h : Layout.SameClasses place cs cs') : statement d p cs' = statement d p cs := by
  rw [statement, statement, foldlM_run, foldlM_run, ← findSome?_failure?_eq h]
  cases cs.findSome? failure? with
  | some e => rfl
  | none =>
    have hfront := (Layout.SameClasses.refl p.frontModifiers).append (sameClasses_added h true)
    have hback := (Layout.SameClasses.refl p.endModifiers).append (sameClasses_added h false)
    have hrearranged := Node.Rearranged.modifiers (p.withModifiers _ _) hfront hback
    refine hrearranged.statement_eq d (Node.wellFormed_withModifiers_iff.mpr ?_)
    obtain ⟨hrest, hmodifiers⟩ := Node.wellFormed_withModifiers_iff.mp hp
    obtain ⟨hpfront, hpback⟩ := List.forall_mem_append.mp hmodifiers
    exact ⟨hrest, List.forall_mem_append.mpr
      ⟨List.forall_mem_append.mpr ⟨hpfront, wellFormed_added hcs true⟩,
        List.forall_mem_append.mpr ⟨hpback, wellFormed_added hcs false⟩⟩⟩

end ModifierCall

open Layout (SameClasses byClass modifierPriority)

/-- Modifiers commute across classes: trees with other orders of modifiers have one statement, in
which the modifiers of every select stand class by class, and calls that add them may be made in
another order. -/
structure ModifiersCommute (d : Dialect) : Prop where
  statement : ∀ m n : Node, m.Rearranged n → m.wellFormed = true → n.statement d = m.statement d
  classes : ∀ ms : List Node, (byClass modifierPriority ms).Perm ms ∧
    (byClass modifierPriority ms).Pairwise (fun m n => modifierPriority m ≤ modifierPriority n) ∧
    SameClasses modifierPriority (byClass modifierPriority ms) ms
  adapted : ∀ p : Select Node, ∃ q : Select Node,
    Node.rewrite d.adapt ⟨.selectQuery p⟩ = ⟨.selectQuery q⟩ ∧
      q.frontModifiers = p.frontModifiers.map (Node.rewrite d.adapt) ∧
      q.endModifiers = p.endModifiers.map (Node.rewrite d.adapt)
  written : ∀ (n : Node) (c : Compiled), n.wellFormed = true → n.compile d = .ok c →
    ∀ (p : Select Node) (parent : Option Kind) (f : List Piece → List Piece),
      Node.Stands d ⟨.selectQuery p⟩ c.query parent f →
        ∃ (T : Template) (before between : List Piece),
          (∀ ps, f ps = T.fill ps) ∧
          (∀ front back, Node.pieces d ⟨.selectQuery (p.withModifiers front back)⟩ =
            before ++ Node.modifierPieces d front ++ between ++ Node.modifierPieces d back) ∧
          c.sql = Piece.sql d (T.fill (Layout.enclosed .selectQuery parent
            (before ++ Node.modifierPieces d p.frontModifiers ++ between ++
              Node.modifierPieces d p.endModifiers))) ∧
          c.parameters = Piece.parameters (T.fill (Layout.enclosed .selectQuery parent
            (before ++ Node.modifierPieces d p.frontModifiers ++ between ++
              Node.modifierPieces d p.endModifiers)))
  calls : ∀ (p : Select Node) (cs cs' : List ModifierCall), p.node.wellFormed = true →
    (∀ c ∈ cs, c.wellFormed = true) → SameClasses ModifierCall.place cs cs' →
      ModifierCall.statement d p cs' = ModifierCall.statement d p cs

theorem modifiers_commute (d : Dialect) : ModifiersCommute d where
  statement m n h hm := h.statement_eq d hm
  classes ms := ⟨Layout.perm_byClass Layout.modifierPriority_lt ms, Layout.pairwise_byClass ms,
    Layout.sameClasses_byClass Layout.modifierPriority_lt ms⟩
  adapted := Node.exists_rewrite_adapt_select d
  written n c hn hc p parent f h := by
    have hquery := Node.eq_of_compile_eq_ok hn hc
    have hwell : c.query.wellFormed = true := by
      rw [hquery]
      exact Node.wellFormed_rewrite_adapt d hn
    obtain ⟨T, hT⟩ := h.exists_template hwell rfl
    obtain ⟨before, between, hpieces⟩ := Node.exists_pieces_withModifiers d p
    have hown : c.query.pieces d = T.fill (Layout.enclosed .selectQuery parent
        (before ++ Node.modifierPieces d p.frontModifiers ++ between ++
          Node.modifierPieces d p.endModifiers)) := by
      rw [h.pieces_eq, Node.piecesIn_select d rfl, hT, ← hpieces]
      rfl
    refine ⟨T, before, between, hT, hpieces, ?_, ?_⟩
    · rw [← hown, hquery]
    · rw [← hown, hquery]
  calls p cs cs' hp hcs h := ModifierCall.statement_of_sameClasses d hp hcs h

/-- A raw fragment and a lock, in either order: at the end of a select in parentheses, and as
calls. -/
theorem modifiers_commute_mssql :
    let raw : Node := ⟨.raw ["option ", ""] [⟨.value (.int 1) false⟩]⟩
    let t : Node := ⟨.table ⟨.schemableIdentifier none ⟨.identifier "t"⟩⟩⟩
    let p : Select Node := (Select.begin (some [t]) none).selectAll
    let fragment : Node := ⟨.selectModifier none (some raw) []⟩
    let lock : Node := ⟨.selectModifier (some .forUpdate) none []⟩
    let q := p.withModifiers [] [fragment, lock]
    let m : Node := ⟨.parens ⟨.selectQuery q⟩⟩
    let n : Node := ⟨.parens ⟨.selectQuery (p.withModifiers [] [lock, fragment])⟩⟩
    let cs : List ModifierCall := [.back raw, .known .forUpdate]
    let cs' : List ModifierCall := [.known .forUpdate, .back raw]
    (m.Rearranged n ∧ m.wellFormed = true ∧ n.statement .mssql = m.statement .mssql) ∧
    (∃ c f, m.compile .mssql = .ok c ∧
      Node.Stands .mssql ⟨.selectQuery q⟩ c.query (some .parens) f ∧
      ∃ (T : Template) (before between : List Piece), (∀ ps, f ps = T.fill ps) ∧
        c.sql = Piece.sql .mssql (T.fill (before ++ Node.modifierPieces .mssql [] ++ between ++
          Node.modifierPieces .mssql [fragment, lock]))) ∧
    p.node.wellFormed = true ∧ (∀ c ∈ cs, c.wellFormed = true) ∧
      SameClasses ModifierCall.place cs cs' ∧
      ModifierCall.statement .mssql p cs' = ModifierCall.statement .mssql p cs := by
  intro raw t p fragment lock q m n cs cs'
  have hclasses : SameClasses modifierPriority [fragment, lock] [lock, fragment] :=
    .swap (show modifierPriority fragment ≠ modifierPriority lock by decide) []
  have hplaces : SameClasses ModifierCall.place cs cs' :=
    .swap (show ModifierCall.place (.back raw) ≠ ModifierCall.place (.known .forUpdate) by decide)
      []
  have hrearranged : m.Rearranged n := by
    have hselect : Node.Rearranged ⟨.selectQuery q⟩
        ⟨.selectQuery (p.withModifiers [] [lock, fragment])⟩ :=
      .modifiers q (.refl []) hclasses
    have h := Node.Rearranged.node (.parens (_, _)) fun c hc => List.mem_singleton.mp hc ▸ hselect
    rwa [Shape.map_eq_each, Shape.map_eq_each] at h
  have hcalls : ∀ c ∈ cs, c.wellFormed = true := by
    intro c hc
    simp only [cs, List.mem_cons, List.not_mem_nil, or_false] at hc
    obtain rfl | rfl := hc <;> rfl
  have hc := Node.compile_of_pieces .mssql (n := m) _ rfl (of_decide_eq_true rfl) rfl
  have hstands : Node.Stands .mssql ⟨.selectQuery q⟩ m (some .parens) _ :=
    .below (.child (.parens none) none rfl List.mem_cons_self)
  have hcommute := modifiers_commute .mssql
  obtain ⟨T, before, between, hT, -, hsql, -⟩ := hcommute.written m _ rfl hc q _ _ hstands
  exact ⟨⟨hrearranged, rfl, hcommute.statement m n hrearranged rfl⟩,
    ⟨_, _, hc, hstands, T, before, between, hT, hsql⟩,
    rfl, hcalls, hplaces, hcommute.calls p cs cs' rfl hcalls hplaces⟩

/-- What to do with rows that are locked is one class: the last two calls do not commute. -/
theorem noWait_skipLocked_apart :
    let t : Node := ⟨.table ⟨.schemableIdentifier none ⟨.identifier "t"⟩⟩⟩
    let p : Select Node := (Select.begin (some [t]) none).selectAll
    ModifierCall.statement .postgres p [.known .noWait, .known .skipLocked] =
        .ok ("select * from \"t\" nowait skip locked", []) ∧
      ModifierCall.statement .postgres p [.known .skipLocked, .known .noWait] =
        .ok ("select * from \"t\" skip locked nowait", []) :=
  ⟨rfl, rfl⟩

end SqlTree
