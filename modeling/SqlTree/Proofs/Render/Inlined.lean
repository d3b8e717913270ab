import SqlTree.Proofs.Pass.Leaves
import SqlTree.Build.View

/-!
# Inlined values

Writing the values of a tree as literals changes its statement in the places of its parameters and
nowhere else, also where a dialect moves them (`Node.compile_inlineAll`).
-/

namespace SqlTree

namespace Node

theorem kind_inlined (n : Node) : n.inlined.kind = n.kind := by
  unfold inlined
  split <;> rfl

theorem inlineAll_eq_rewrite {n : Node} (h : n.wellFormed = true) :
    n.inlineAll = .ok (n.rewrite inlined) :=
  transform_eq_rewrite kind_inlined h

/-- Only values and lists of values are changed. -/
theorem inlined_of_not_leaf {s : Shape Node} (h : Layout.isLeaf s = false) :
    inlined ⟨s⟩ = ⟨s⟩ := by
  cases s with
  | value v immediate => cases h
  | valueList items =>
    cases items with
    | primitive vs => cases h
    | expressions as => rfl
  | _ => rfl

theorem rewrite_adapt_literals (d : Dialect) (vs : List Value) :
    rewrite d.adapt ⟨.valueList (.expressions (vs.map .literal))⟩ =
      ⟨.valueList (.expressions (vs.map .literal))⟩ := by
  refine rewrite_valueList ?_ (d.adapt_eq_self nofun nofun)
  intro n hn
  obtain ⟨v, -, rfl⟩ := List.mem_map.mp hn
  exact rewrite_adapt_of_isLeaf d rfl

theorem onLeaves_inlined : OnLeaves inlined where
  kind := kind_inlined
  other := inlined_of_not_leaf
  value v _ := ⟨true, rfl⟩
  bit _ := rfl
  adapted d s h := by
    obtain ⟨name, rfl⟩ | ⟨v, immediate, rfl⟩ | ⟨vs, rfl⟩ := Layout.eq_of_isLeaf h
    · exact rewrite_adapt_of_isLeaf d rfl
    · exact rewrite_adapt_of_isLeaf d rfl
    · exact rewrite_adapt_literals d vs

end Node

namespace Piece

/-- A parameter is written out. -/
def asLiteral : Piece → Piece
  | .parameter v => .literal v
  | p => p

theorem refusal?_asLiteral (ps : List Piece) : refusal? (ps.map asLiteral) = refusal? ps := by
  induction ps with
  | nil => rfl
  | cons p ps ih =>
    cases p with
    | refused f => rfl
    | _ => exact ih

theorem parameters_asLiteral (ps : List Piece) : parameters (ps.map asLiteral) = [] := by
  induction ps with
  | nil => rfl
  | cons p ps ih => cases p <;> exact ih

/-- Texts with marks between them. -/
def woven (first : String) (marks texts : List String) : String :=
  first ++ .join (List.zipWith (· ++ ·) marks texts)

/-- The placeholders of `n` parameters after the first `k`. -/
def placeholders (d : Dialect) (k n : Nat) : List String :=
  (List.range' (k + 1) n).map d.placeholder

theorem woven_append (s first : String) (marks texts : List String) :
    woven (s ++ first) marks texts = s ++ woven first marks texts := by
  rw [woven, woven, String.append_assoc]

theorem woven_cons (first mark text : String) (marks texts : List String) :
    woven first (mark :: marks) (text :: texts) = first ++ (mark ++ woven text marks texts) := by
  simp only [woven, List.zipWith_cons_cons, String.join_cons, String.append_assoc]

theorem placeholders_succ (d : Dialect) (k n : Nat) :
    placeholders d k (n + 1) = d.placeholder (k + 1) :: placeholders d (k + 1) n := by
  rw [placeholders, List.range'_succ, List.map_cons, placeholders]

/-- The same texts stand around the placeholders of pieces and around their literals. -/
theorem exists_woven (d : Dialect) (k l : Nat) (ps : List Piece) :
    ∃ first texts, texts.length = (parameters ps).length ∧
      String.join (Piece.texts d k ps) =
        woven first (placeholders d k (parameters ps).length) texts ∧
      String.join (Piece.texts d l (ps.map asLiteral)) =
        woven first ((parameters ps).map d.literal) texts := by
  induction ps generalizing k with
  | nil => exact ⟨"", [], rfl, rfl, rfl⟩
  | cons p ps ih =>
    have hplain : ∀ s, (∀ m qs, Piece.texts d m (p :: qs) = s :: Piece.texts d m qs) →
        asLiteral p = p → parameters (p :: ps) = parameters ps →
        ∃ first texts, texts.length = (parameters (p :: ps)).length ∧
          String.join (Piece.texts d k (p :: ps)) =
            woven first (placeholders d k (parameters (p :: ps)).length) texts ∧
          String.join (Piece.texts d l ((p :: ps).map asLiteral)) =
            woven first ((parameters (p :: ps)).map d.literal) texts := by
      intro s hs hp hps
      obtain ⟨first, texts, hlength, hbound, hliteral⟩ := ih k
      refine ⟨s ++ first, texts, hps ▸ hlength, ?_, ?_⟩
      · rw [hs, String.join_cons, hbound, hps, woven_append]
      · rw [List.map_cons, hp, hs, String.join_cons, hliteral, hps, woven_append]
    cases p with
    | text s => exact hplain s (fun _ _ => rfl) rfl rfl
    | verbatim s => exact hplain s (fun _ _ => rfl) rfl rfl
    | name s => exact hplain (d.quote s) (fun _ _ => rfl) rfl rfl
    | literal v => exact hplain (d.literal v) (fun _ _ => rfl) rfl rfl
    | refused f => exact ih k
    | parameter v =>
      obtain ⟨first, texts, hlength, hbound, hliteral⟩ := ih (k + 1)
      refine ⟨"", first :: texts, by simp [parameters, hlength], ?_, ?_⟩
      · simp only [Piece.texts, parameters, List.length_cons, placeholders_succ, woven_cons,
          String.join_cons, hbound, String.empty_append]
      · simp only [List.map_cons, asLiteral, Piece.texts, parameters, woven_cons,
          String.join_cons, hliteral, String.empty_append]

end Piece

namespace Node

theorem literals_congruence (d : Dialect) :
    Layout.Congruence d d fun ps qs => qs = ps.map Piece.asLiteral :=
  .ofWords rfl (fun h h' => by rw [h, h', List.map_append]) (fun _ => rfl) (fun _ => rfl)
    (fun _ => rfl)

theorem separated_literals (n : Node → List Piece) (hn : ∀ v, n (literal v) = [.literal v])
    (vs : List Value) :
    Layout.separated ", " ((vs.map literal).map fun c => (c, n c)) =
      (Layout.parameters vs).map Piece.asLiteral := by
  induction vs with
  | nil => rfl
  | cons v vs ih =>
    cases vs with
    | nil => exact hn v
    | cons w vs =>
      simp only [List.map_cons, Layout.separated, Layout.parameters, Piece.asLiteral] at ih ⊢
      rw [ih, hn]
      rfl

theorem piecesIn_rewrite_inlined (d : Dialect) (n : Node) (parent : Option Kind) :
    (n.rewrite inlined).piecesIn d parent = (n.piecesIn d parent).map Piece.asLiteral := by
  apply onLeaves_inlined.piecesIn_rewrite (literals_congruence d)
  intro s hs parent
  obtain ⟨name, rfl⟩ | ⟨v, immediate, rfl⟩ | ⟨vs, rfl⟩ := Layout.eq_of_isLeaf hs
  · rfl
  · cases immediate <;> rfl
  · rw [inlined, piecesIn_mk, piecesIn_mk, Shape.map_eq_each, Shape.map_eq_each]
    show Layout.sql "(" ++ Layout.separated ", " _ ++ Layout.sql ")" = _
    rw [separated_literals _ fun v => rfl]
    simp [Layout.pieces, Shape.each, ListItems.each, Layout.sql, Piece.asLiteral]

theorem wellFormed_inlined {n : Node} (h : n.wellFormed = true) : n.inlined.wellFormed = true := by
  unfold inlined
  split
  · rfl
  · apply wellFormed_valueList
    intro n hn
    obtain ⟨v, -, rfl⟩ := List.mem_map.mp hn
    rfl
  · exact h

/-- Binding the values of a tree and writing them into it fail alike, or give one text but for the
places of the parameters. -/
theorem compile_inlineAll (d : Dialect) {n : Node} (h : n.wellFormed = true) :
    ∃ m, n.inlineAll = .ok m ∧
      ((∃ e, n.compile d = .error e ∧ m.compile d = .error e) ∨
        ∃ (bound written : Compiled) (first : String) (texts : List String),
          n.compile d = .ok bound ∧ m.compile d = .ok written ∧
            texts.length = bound.parameters.length ∧
            bound.sql =
              Piece.woven first (Piece.placeholders d 0 bound.parameters.length) texts ∧
            written.sql = Piece.woven first (bound.parameters.map d.literal) texts ∧
            written.parameters = []) := by
  have hm : (n.rewrite inlined).wellFormed = true :=
    wellFormed_rewrite kind_inlined (fun _ => wellFormed_inlined) h
  have hpieces : ((n.rewrite inlined).rewrite d.adapt).pieces d =
      ((n.rewrite d.adapt).pieces d).map Piece.asLiteral := by
    rw [onLeaves_inlined.rewrite_adapt]
    exact piecesIn_rewrite_inlined d _ none
  have hrefusal : Piece.refusal? (((n.rewrite inlined).rewrite d.adapt).pieces d) =
      Piece.refusal? ((n.rewrite d.adapt).pieces d) := by
    rw [hpieces, Piece.refusal?_asLiteral]
  refine ⟨n.rewrite inlined, inlineAll_eq_rewrite h, ?_⟩
  cases hr : Piece.refusal? ((n.rewrite d.adapt).pieces d) with
  | some f =>
    exact .inl ⟨_, compile_of_refusal h hr, compile_of_refusal hm (hrefusal.trans hr)⟩
  | none =>
    obtain ⟨first, texts, hlength, hbound, hwritten⟩ :=
      Piece.exists_woven d 0 0 ((n.rewrite d.adapt).pieces d)
    refine .inr ⟨_, _, first, texts, compile_of_no_refusal h hr,
      compile_of_no_refusal hm (hrefusal.trans hr), hlength, hbound, ?_, ?_⟩
    · rw [hpieces]
      exact hwritten
    · rw [hpieces]
      exact Piece.parameters_asLiteral _

/-- A limit that becomes the number of a `top`. -/
theorem compile_inlineAll_mssql :
    let n : Node := ⟨.selectQuery {
      selections := [⟨.selection ⟨.selectAll⟩⟩]
      whereClause := some ⟨.whereClause ⟨.binaryOperation ⟨.column ⟨.identifier "age"⟩⟩
        ⟨.operator .isIn⟩ ⟨.valueList (.primitive [.int 7, .null])⟩⟩⟩
      limit := some ⟨.limit ⟨.value (.int 10) false⟩⟩ }⟩
    n.wellFormed = true ∧ ∃ m, n.inlineAll = .ok m ∧
      ∃ (bound written : Compiled) (first : String) (texts : List String),
        n.compile .mssql = .ok bound ∧ m.compile .mssql = .ok written ∧
          texts.length = bound.parameters.length ∧
          bound.sql =
            Piece.woven first (Piece.placeholders .mssql 0 bound.parameters.length) texts ∧
          written.sql = Piece.woven first (bound.parameters.map Dialect.mssql.literal) texts ∧
          written.parameters = [] := by
  intro n
  have h : n.wellFormed = true := rfl
  obtain ⟨m, hm, ⟨e, he, -⟩ | hok⟩ := compile_inlineAll .mssql h
  · cases he
  · exact ⟨h, m, hm, hok⟩

end Node

end SqlTree
