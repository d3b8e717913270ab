import SqlTree.Proofs.Condition.Chain
import SqlTree.Proofs.Condition.Placement
import SqlTree.Proofs.Read.Names

/-!
# Filters joined call by call

The calls that filter the rows of a statement, and those that put the condition of a join together,
are steps of a chain (`Chain.Lawful`).  What they join is written as it is joined and reads as it is
written; it means what the calls mean exactly as long as no filter is joined with `and` to a
condition that has an `or` (`filters_keep_meaning_iff`).
-/

namespace SqlTree

open Condition

/-- Calls that put a condition together for the trees it belongs to, how each call joins its filter,
and what it means. -/
structure Chain (κ τ : Type) where
  apply : τ → κ → Except Error τ
  clause : τ → Option Node
  wrap : Node → Node
  word : String
  Belongs : τ → Node → Prop
  mark : κ → Step Unit
  value : Assignment → κ → Step Truth

namespace Chain

variable {κ τ : Type} (C : Chain κ τ)

/-- The call is the step. -/
structure Takes (b : τ) (k : κ) (b' : τ) (s : Step Filter) : Prop where
  apply : C.apply b k = .ok b'
  mark : C.mark k = s.mark
  value : ∀ v, C.value v k = s.map (Filter.value v)
  clause : C.clause b' =
    ((s.map Filter.node).condition ((C.clause b).bind Node.condition?)).map C.wrap

/-- Every call is a step, and there is a call for every filter. -/
structure Lawful : Prop where
  condition?_wrap : ∀ c, (C.wrap c).condition? = some c
  pieces_wrap : ∀ d c parent, ((C.wrap c).rewrite d.adapt).piecesIn d parent =
    .text C.word :: (c.rewrite d.adapt).piecesIn d (some (C.wrap c).kind)
  isWrittenIn : ∀ {b w n}, C.clause b = some w → C.Belongs b n → w.IsWrittenIn n
  takes : ∀ {b k b'}, C.apply b k = .ok b' → ∃ s, C.Takes b k b' s
  probe : ∀ b k f, ∃ k' b', C.Takes b k' b' ((C.mark k).map fun _ => f)

/-- The clause that the calls leave stands in the text of what it belongs to, and is written as its
word and the row of its condition. -/
def IsWritten (b : τ) (ks : List κ) : Prop :=
  ∀ b', ks.foldlM C.apply b = .ok b' → ∀ w, C.clause b' = some w →
    (∀ n, C.Belongs b' n → w.IsWrittenIn n) ∧
      ∃ c, w.condition? = some c ∧ ∀ d parent, (w.rewrite d.adapt).piecesIn d parent =
        .text C.word :: c.tokens.flatMap (Token.pieces d)

/-- The condition that the calls leave reads as alternatives, and `and` goes with the last one. -/
def ReadsAlternatives (b : τ) (ks : List κ) : Prop :=
  ∀ b', ks.foldlM C.apply b = .ok b' →
    ∀ v, Option.Rel (HasTruth v) (C.clause b') (Step.read (ks.map (C.value v)))

/-- The condition that the calls leave has the truth value that they give from left to right. -/
def KeepsMeaning (b : τ) (ks : List κ) : Prop :=
  ∀ b', ks.foldlM C.apply b = .ok b' →
    ∀ v, Option.Rel (HasTruth v) (C.clause b') (Step.meant (ks.map (C.value v)))

variable {C} (hC : C.Lawful)
include hC

theorem Lawful.bind_condition? (c : Option Node) : (c.map C.wrap).bind Node.condition? = c := by
  cases c with
  | none => rfl
  | some c => exact hC.condition?_wrap c

theorem Lawful.exists_steps {ks : List κ} {b b' : τ} {c : Option Node}
    (hb : C.clause b = c.map C.wrap) (h : ks.foldlM C.apply b = .ok b') :
    ∃ ss : List (Step Filter), ks.map C.mark = ss.map Step.mark ∧
      (∀ v, ks.map (C.value v) = ss.map (Step.map (Filter.value v))) ∧
      C.clause b' = ((ss.map (Step.map Filter.node)).foldl Step.condition c).map C.wrap := by
  induction ks generalizing b c with
  | nil =>
    cases h
    exact ⟨[], rfl, fun _ => rfl, hb⟩
  | cons k ks ih =>
    rw [List.foldlM_cons] at h
    cases hk : C.apply b k with
    | error e =>
      rw [hk] at h
      cases h
    | ok b₁ =>
      rw [hk] at h
      obtain ⟨s, -, hmark, hvalue, hclause⟩ := hC.takes hk
      rw [hb, hC.bind_condition?] at hclause
      obtain ⟨ss, hmarks, hvalues, hclauses⟩ := ih hclause h
      refine ⟨s :: ss, ?_, fun v => ?_, hclauses⟩
      · rw [List.map_cons, List.map_cons, hmark, hmarks]
      · rw [List.map_cons, List.map_cons, hvalue, hvalues]

/-- There are calls for every chain of filters. -/
theorem Lawful.exists_probes (ks : List κ) (g : Grouping) {b : τ} {c : Option Node}
    (hb : C.clause b = c.map C.wrap) :
    ∃ (ks' : List κ) (b' : τ), ks'.map C.mark = ks.map C.mark ∧ ks'.foldlM C.apply b = .ok b' ∧
      ∀ v, ks'.map (C.value v) =
        (Step.probes g (ks.map C.mark)).map (Step.map (Filter.value v)) := by
  induction ks generalizing g b c with
  | nil => exact ⟨[], b, rfl, rfl, fun _ => rfl⟩
  | cons k ks ih =>
    obtain ⟨k', b₁, happly, hmark, hvalue, hclause⟩ :=
      hC.probe b k (if g.next (C.mark k) = .mixed then Step.missed else Step.met)
    rw [hb, hC.bind_condition?] at hclause
    obtain ⟨ks', b', hmarks, hrun, hvalues⟩ := ih (g.next (C.mark k)) hclause
    refine ⟨k' :: ks', b', ?_, ?_, fun v => ?_⟩
    · rw [List.map_cons, List.map_cons, hmarks, hmark, Step.mark_map, Step.mark_unit]
    · rw [List.foldlM_cons, happly]
      exact hrun
    · rw [List.map_cons, List.map_cons, Step.probes, List.map_cons, hvalue, hvalues]

theorem Lawful.isWritten {b : τ} (hb : C.clause b = none) (ks : List κ) : C.IsWritten b ks := by
  intro b' h w hw
  refine ⟨fun n => hC.isWrittenIn hw, ?_⟩
  obtain ⟨ss, -, -, hclause⟩ := hC.exists_steps (c := none) hb h
  have hchained := Chained.empty.steps ss
  rw [hclause] at hw
  obtain ⟨c, hc, rfl⟩ := Option.map_eq_some_iff.mp hw
  rw [hc] at hchained
  refine ⟨c, hC.condition?_wrap c, fun d parent => ?_⟩
  rw [hC.pieces_wrap, pieces_eq_tokens d hchained.isCondition]

theorem Lawful.readsAlternatives {b : τ} (hb : C.clause b = none) (ks : List κ) :
    C.ReadsAlternatives b ks := by
  intro b' h v
  obtain ⟨ss, -, hvalues, hclause⟩ := hC.exists_steps (c := none) hb h
  rw [hclause, hvalues]
  exact (Chained.empty.steps ss).rel hC.condition?_wrap v

/-- Calls that join their filters in given ways keep their meaning whatever the filters are, if and
only if no filter is joined with `and` to a condition that has an `or`. -/
theorem Lawful.keepsMeaning_iff {b : τ} (hb : C.clause b = none) (ks : List κ) :
    (∀ ks' : List κ, ks'.map C.mark = ks.map C.mark → C.KeepsMeaning b ks') ↔
      Grouping.after (ks.map C.mark) ≠ .mixed := by
  constructor
  · intro h hmixed
    obtain ⟨ks', b', hmarks, hrun, hvalues⟩ := hC.exists_probes ks .empty (c := none) hb
    have hmeant := h ks' hmarks b' hrun Step.sample
    have hread := hC.readsAlternatives hb ks' b' hrun Step.sample
    rw [hvalues] at hmeant hread
    exact Step.read_probes_ne_meant hmixed (HasTruth.rel_eq hread hmeant)
  · intro hg ks' hmarks b' hrun v
    obtain ⟨ss, hss, hvalues, -⟩ := hC.exists_steps (c := none) hb hrun
    have hread := hC.readsAlternatives hb ks' b' hrun v
    have hmark : (ks'.map (C.value v)).map Step.mark = ks.map C.mark := by
      rw [hvalues, List.map_map, ← hmarks, hss]
      exact List.map_congr_left fun s _ => s.mark_map _
    rwa [Step.read_eq_meant (hmark ▸ hg)] at hread

end Chain

theorem Node.extended_eq_elim (join : Node → Node → Node) (clause : Option Node) (c : Node) :
    extended join clause c = (clause.bind condition?).elim c fun before => join before c := by
  rw [extended]
  cases clause.bind condition? <;> rfl

theorem Node.eq_binary_of_compare {l n : Node} {operator : String} {r : Operand}
    (h : l.compare operator r = .ok n) : ∃ op r', n = binary l op r' := by
  rw [compare] at h
  obtain ⟨op, -, h⟩ := exists_of_bind_eq_ok h
  cases h
  exact ⟨_, _, rfl⟩

namespace Term

variable {l : Term} {n c : Node} {operator : String} {r : Operand}

theorem compare_eq_ok {op : Operator} (hl : l.reference = .ok n)
    (hop : Operator.readBinary operator = .ok op) :
    l.compare operator r = .ok (n.comparison op r) := by
  simp only [compare, hl, Node.compare, hop, bind, Except.bind]
  rfl

theorem eq_comparison_of_compare (h : l.compare operator r = .ok c) :
    ∃ n op, l.reference = .ok n ∧ Operator.readBinary operator = .ok op ∧
      c = n.comparison op r := by
  obtain ⟨n, hn, h⟩ := exists_of_bind_eq_ok h
  obtain ⟨op, hop, h⟩ := exists_of_bind_eq_ok h
  cases h
  exact ⟨n, op, hn, hop, rfl⟩

end Term

theorem Term.eq_binary_of_compare {l : Term} {operator : String} {r : Operand} {n : Node}
    (h : l.compare operator r = .ok n) : ∃ l' op r', n = .binary l' op r' := by
  rw [compare] at h
  obtain ⟨l', -, h⟩ := exists_of_bind_eq_ok h
  exact ⟨l', Node.eq_binary_of_compare h⟩

theorem Term.eq_binary_of_relate {l r : Term} {operator : String} {n : Node}
    (h : l.relate operator r = .ok n) : ∃ l' op r', n = .binary l' op r' := by
  rw [relate] at h
  obtain ⟨l', -, h⟩ := exists_of_bind_eq_ok h
  obtain ⟨r', -, h⟩ := exists_of_bind_eq_ok h
  exact ⟨l', Node.eq_binary_of_compare h⟩

/-- What a comparison means once its parts are read. -/
def Condition.Assignment.comparison (v : Assignment) : Except Error Node → Truth
  | .ok n => v.truth n
  | .error _ => .unknown

/-- The calls that filter the rows of a statement. -/
inductive FilterCall where
  | compare (left : Term) (operator : String) (right : Operand)
  | relate (left : Term) (operator : String) (right : Term)
  | both (f : Filter)
  | either (f : Filter)
  | clear

namespace FilterCall

open Filtered

def apply {σ : Type} [Filtered σ] (b : σ) : FilterCall → Except Error σ
  | .compare l operator r => whereCompare b l operator r
  | .relate l operator r => whereColumns b l operator r
  | .both f => .ok (whereNode b f.node)
  | .either f => .ok (orWhereNode b f.node)
  | .clear => .ok (clearWhere b)

def mark : FilterCall → Step Unit
  | .compare _ _ _ => .both ()
  | .relate _ _ _ => .both ()
  | .both _ => .both ()
  | .either _ => .either ()
  | .clear => .clear

def value (v : Assignment) : FilterCall → Step Truth
  | .compare l operator r => .both (v.comparison (l.compare operator r))
  | .relate l operator r => .both (v.comparison (l.relate operator r))
  | .both f => .both (f.value v)
  | .either f => .either (f.value v)
  | .clear => .clear

end FilterCall

/-- The calls that put the condition of a join together. -/
inductive JoinCall where
  | compare (left : Term) (operator : String) (right : Operand)
  | both (f : Filter)
  | either (f : Filter)

namespace JoinCall

def apply (j : JoinCondition) : JoinCall → Except Error JoinCondition
  | .compare l operator r => j.on l operator r
  | .both f => .ok (j.onNode f.node)
  | .either f => .ok (j.orOnNode f.node)

def mark : JoinCall → Step Unit
  | .compare _ _ _ => .both ()
  | .both _ => .both ()
  | .either _ => .either ()

def value (v : Assignment) : JoinCall → Step Truth
  | .compare l operator r => .both (v.comparison (l.compare operator r))
  | .both f => .both (f.value v)
  | .either f => .either (f.value v)

end JoinCall

def whereChain (σ : Type) [Filtering σ] : Chain FilterCall σ where
  apply := FilterCall.apply
  clause := Filtered.filter
  wrap c := ⟨.whereClause c⟩
  word := "where "
  Belongs b n := n = Filtering.statement b
  mark := FilterCall.mark
  value := FilterCall.value

def onChain : Chain JoinCall JoinCondition where
  apply := JoinCall.apply
  clause := JoinCondition.clause
  wrap c := ⟨.onClause c⟩
  word := "on "
  Belongs j n := ∃ type table, n = ⟨.join type table j.clause⟩
  mark := JoinCall.mark
  value := JoinCall.value

theorem Filtered.filter_whereNode {σ : Type} [Filtered σ] (b : σ) (n : Node) :
    filter (whereNode b n) =
      (Step.condition ((filter b).bind Node.condition?) (.both n)).map (⟨.whereClause ·⟩) := by
  rw [whereNode, filter_setFilter, Node.whereBoth, Node.extended_eq_elim]
  rfl

theorem Filtered.filter_orWhereNode {σ : Type} [Filtered σ] (b : σ) (n : Node) :
    filter (orWhereNode b n) =
      (Step.condition ((filter b).bind Node.condition?) (.either n)).map (⟨.whereClause ·⟩) := by
  rw [orWhereNode, filter_setFilter, Node.whereEither, Node.extended_eq_elim]
  rfl

theorem JoinCondition.clause_onNode (j : JoinCondition) (n : Node) :
    (j.onNode n).clause =
      (Step.condition (j.clause.bind Node.condition?) (.both n)).map (⟨.onClause ·⟩) := by
  rw [onNode, Node.onBoth, Node.extended_eq_elim]
  rfl

theorem JoinCondition.clause_orOnNode (j : JoinCondition) (n : Node) :
    (j.orOnNode n).clause =
      (Step.condition (j.clause.bind Node.condition?) (.either n)).map (⟨.onClause ·⟩) := by
  rw [orOnNode, Node.onEither, Node.extended_eq_elim]
  rfl

/-- A call that joins a comparison by `and`, once its parts are read. -/
theorem Chain.exists_takes_of_comparison {κ τ : Type} {C : Chain κ τ} {b b' : τ} {k : κ}
    {x : Except Error Node} (add : Node → τ) (happly : C.apply b k = x >>= fun n => .ok (add n))
    (hmark : C.mark k = .both ()) (hvalue : ∀ v, C.value v k = .both (v.comparison x))
    (hclause : ∀ n, C.clause (add n) =
      (Step.condition ((C.clause b).bind Node.condition?) (.both n)).map C.wrap)
    (hbinary : ∀ n, x = .ok n → ∃ l op r, n = .binary l op r) (h : C.apply b k = .ok b') :
    ∃ s, C.Takes b k b' s := by
  have hb' := h
  rw [happly] at hb'
  obtain ⟨n, rfl, hb'⟩ := exists_of_bind_eq_ok hb'
  cases hb'
  obtain ⟨l, op, r, rfl⟩ := hbinary n rfl
  exact ⟨.both (.comparison l op r), h, hmark, hvalue, hclause _⟩

namespace FilterCall

variable {σ : Type} [Filtering σ] (b : σ)

theorem takes_both (f : Filter) :
    (whereChain σ).Takes b (.both f) (Filtered.whereNode b f.node) (.both f) where
  apply := rfl
  mark := rfl
  value _ := rfl
  clause := Filtered.filter_whereNode b f.node

theorem takes_either (f : Filter) :
    (whereChain σ).Takes b (.either f) (Filtered.orWhereNode b f.node) (.either f) where
  apply := rfl
  mark := rfl
  value _ := rfl
  clause := Filtered.filter_orWhereNode b f.node

theorem takes_clear : (whereChain σ).Takes b .clear (Filtered.clearWhere b) .clear where
  apply := rfl
  mark := rfl
  value _ := rfl
  clause := Filtered.filter_setFilter b none

theorem exists_takes {b b' : σ} {k : FilterCall} (h : k.apply b = .ok b') :
    ∃ s, (whereChain σ).Takes b k b' s := by
  cases k with
  | compare l operator r =>
    exact Chain.exists_takes_of_comparison (Filtered.whereNode b) rfl rfl (fun _ => rfl)
      (Filtered.filter_whereNode b) (fun _ => Term.eq_binary_of_compare) h
  | relate l operator r =>
    exact Chain.exists_takes_of_comparison (Filtered.whereNode b) rfl rfl (fun _ => rfl)
      (Filtered.filter_whereNode b) (fun _ => Term.eq_binary_of_relate) h
  | both f =>
    cases h
    exact ⟨_, takes_both b f⟩
  | either f =>
    cases h
    exact ⟨_, takes_either b f⟩
  | clear =>
    cases h
    exact ⟨_, takes_clear b⟩

end FilterCall

theorem lawful_whereChain (σ : Type) [Filtering σ] : (whereChain σ).Lawful where
  condition?_wrap c := rfl
  pieces_wrap d c parent := by
    exact piecesIn_adapted d (s := .whereClause c) nofun nofun parent
  isWrittenIn := by
    rintro b w n hw rfl
    exact Filtering.isWrittenIn hw
  takes := FilterCall.exists_takes
  probe b k f := by
    cases k with
    | compare l operator r => exact ⟨_, _, FilterCall.takes_both b f⟩
    | relate l operator r => exact ⟨_, _, FilterCall.takes_both b f⟩
    | both f' => exact ⟨_, _, FilterCall.takes_both b f⟩
    | either f' => exact ⟨_, _, FilterCall.takes_either b f⟩
    | clear => exact ⟨_, _, FilterCall.takes_clear b⟩

namespace JoinCall

variable (j : JoinCondition)

theorem takes_both (f : Filter) : onChain.Takes j (.both f) (j.onNode f.node) (.both f) where
  apply := rfl
  mark := rfl
  value _ := rfl
  clause := j.clause_onNode f.node

theorem takes_either (f : Filter) :
    onChain.Takes j (.either f) (j.orOnNode f.node) (.either f) where
  apply := rfl
  mark := rfl
  value _ := rfl
  clause := j.clause_orOnNode f.node

theorem exists_takes {j j' : JoinCondition} {k : JoinCall} (h : k.apply j = .ok j') :
    ∃ s, onChain.Takes j k j' s := by
  cases k with
  | compare l operator r =>
    exact Chain.exists_takes_of_comparison j.onNode rfl rfl (fun _ => rfl) j.clause_onNode
      (fun _ => Term.eq_binary_of_compare) h
  | both f =>
    cases h
    exact ⟨_, takes_both j f⟩
  | either f =>
    cases h
    exact ⟨_, takes_either j f⟩

end JoinCall

theorem lawful_onChain : onChain.Lawful where
  condition?_wrap c := rfl
  pieces_wrap d c parent := by
    exact piecesIn_adapted d (s := .onClause c) nofun nofun parent
  isWrittenIn := by
    rintro j w n hw ⟨type, table, rfl⟩
    rw [show j.clause = some w from hw]
    exact Node.isWrittenIn_join type table w
  takes := JoinCall.exists_takes
  probe j k f := by
    cases k with
    | compare l operator r => exact ⟨_, _, JoinCall.takes_both j f⟩
    | both f' => exact ⟨_, _, JoinCall.takes_both j f⟩
    | either f' => exact ⟨_, _, JoinCall.takes_either j f⟩

/-- The filters of a statement and the condition of a join are written as they are joined, and `and`
goes with the last alternative.  This is what the calls mean from left to right, whatever their
filters are, if and only if no filter is joined with `and` to a condition that has an `or`. -/
theorem filters_keep_meaning_iff {σ : Type} [Filtering σ] {b : σ} (hb : Filtered.filter b = none)
    (calls : List FilterCall) (joinCalls : List JoinCall) :
    ((whereChain σ).IsWritten b calls ∧ (whereChain σ).ReadsAlternatives b calls ∧
      ((∀ calls' : List FilterCall, calls'.map FilterCall.mark = calls.map FilterCall.mark →
          (whereChain σ).KeepsMeaning b calls') ↔
        Grouping.after (calls.map FilterCall.mark) ≠ .mixed)) ∧
    (onChain.IsWritten {} joinCalls ∧ onChain.ReadsAlternatives {} joinCalls ∧
      ((∀ calls' : List JoinCall, calls'.map JoinCall.mark = joinCalls.map JoinCall.mark →
          onChain.KeepsMeaning {} calls') ↔
        Grouping.after (joinCalls.map JoinCall.mark) ≠ .mixed)) := by
  have hwhere := lawful_whereChain σ
  have hon := lawful_onChain
  constructor
  · exact ⟨hwhere.isWritten hb calls, hwhere.readsAlternatives hb calls,
      hwhere.keepsMeaning_iff hb calls⟩
  · exact ⟨hon.isWritten rfl joinCalls, hon.readsAlternatives rfl joinCalls,
      hon.keepsMeaning_iff rfl joinCalls⟩

/-- A select and a join whose filters keep their meaning, since `or` comes last. -/
theorem filters_keep_meaning_or_last :
    Filtered.filter ({} : Select Node) = none ∧
    (∀ calls : List FilterCall, calls.map FilterCall.mark = [.both (), .both (), .either ()] →
      (whereChain (Select Node)).KeepsMeaning {} calls) ∧
    (∀ calls : List JoinCall, calls.map JoinCall.mark = [.both (), .either (), .either ()] →
      onChain.KeepsMeaning {} calls) := by
  have h := filters_keep_meaning_iff (b := ({} : Select Node)) rfl
    [.both Step.met, .both Step.met, .either Step.missed]
    [.both Step.met, .either Step.met, .either Step.missed]
  exact ⟨rfl, h.1.2.2.mpr (by decide), h.2.2.2.mpr (by decide)⟩

/-- Rows with `a < 1`, those with `b > 2` too, and of these the ones with `c > 3`. -/
def orThenAnd : List FilterCall :=
  [.both (.comparison (.raw "a") .lt (.bound (.int 1))),
    .either (.comparison (.raw "b") .gt (.bound (.int 2))),
    .both (.comparison (.raw "c") .gt (.bound (.int 3)))]

/-- Where only `a < 1` is met, the text is met as well, but not what the calls mean. -/
theorem not_keepsMeaning_orThenAnd : ¬ (whereChain (Select Node)).KeepsMeaning {} orThenAnd := by
  intro h
  have hmeant := h _ rfl Step.sample
  have hread := (lawful_whereChain (Select Node)).readsAlternatives (b := {}) rfl orThenAnd _ rfl
    Step.sample
  have hne : Step.read (orThenAnd.map (FilterCall.value Step.sample)) ≠
    Step.meant (orThenAnd.map (FilterCall.value Step.sample)) := by decide
  exact hne (HasTruth.rel_eq hread hmeant)

end SqlTree
