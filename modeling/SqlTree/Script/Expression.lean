import SqlTree.Script.Argument
import SqlTree.Build.Aggregate

/-!
# Expressions in scripts

An expression is an object with one member that says what it is, and the calls that follow it.
-/

namespace SqlTree.Script

variable (r : Readers)

/-- A plain value, an expression, a statement, or a list of these. -/
def operand : Json → Except Error Operand
  | .object [("e", e)] => return .node (← r.expression e)
  | .object [("q", q)] => return .node (← r.statement q)
  | .object [("list", .array js)] => return .node (Operand.list (← js.mapM r.operand))
  | j => return .value (← value j)

def branch (c : CaseBranches) : Json → Except Error CaseBranches
  | .array [condition, result] => do
    let x ← r.operand condition
    return c.when x (← r.operand result)
  | _ => .error .unreadable

/-- A case; an `else` that is present may be null. -/
def caseOf (j : Json) : Except Error Node := do
  let value ← ((j.get? "value").filter fun e => !(e matches .null)).mapM r.expression
  let c ← ((j.get? "when").getD .null).items.foldlM (branch r) { value }
  let c ← match j.get? "else" with
    | some e => do pure (c.orElse (← r.operand e))
    | none => pure c
  return c.node (j.get? "end_case").isSome

def base : String × Json → Except Error Node
  | ("ref", .string s) => Read.reference s
  | ("val", v) => return .bound (← value v)
  | ("lit", v) => return .literal (← value v)
  | ("raw", .string s) => .ok (.raw s)
  | ("raw_with", .array [.string s, es]) => do Node.rawWith s (← r.expressions es)
  | ("cmp", .array [a, .string op, b]) => do
    let (l, v) ← r.comparison a b
    l.compare op v
  | ("cmp_ref", .array [a, .string op, b]) => do
    let (l, m) ← r.columns a b
    l.compareColumns op m
  | ("between", .array [a, low, high]) => do
    let (l, low) ← r.comparison a low
    l.between low (← r.operand high)
  | ("and", es) => return .conjunction (← r.expressions es)
  | ("or", es) => return .disjunction (← r.expressions es)
  | ("not", e) => return .negation (← r.expression e)
  | ("exists", q) => return .unary .hasRows (← r.statement q)
  | ("not_exists", q) => return .unary .hasNoRows (← r.statement q)
  | ("neg", e) => return .unary .negate (← r.expression e)
  | ("parens", e) => return .parens (← r.expression e)
  | ("func", .array [.string s, es]) => return .call s (← r.expressions es)
  | ("cast", .array [e, .string s]) => do (← r.expression e).castTo s
  | ("excluded", .string s) => Node.excluded s
  | ("sub", .array [q, .string s]) => return .named (← r.statement q) s
  | ("query", q) => r.statement q
  | ("list", .array js) => return Operand.list (← js.mapM r.operand)
  | ("node", j) => tree j
  | ("case", j) => caseOf r j
  | _ => .error .unreadable

def follow (n : Node) : Call → Except Error Node
  | ⟨"as", [.string s]⟩ => .ok (n.named s)
  | ⟨"cmp", [.string op, v]⟩ => do n.compare op (← r.operand v)
  | ⟨"is_null", []⟩ => .ok n.isNull
  | ⟨"is_not_null", []⟩ => .ok n.isNotNull
  | ⟨"and", [e]⟩ => return .conjunction [n, ← r.expression e]
  | ⟨"or", [e]⟩ => return .disjunction [n, ← r.expression e]
  | ⟨"not", []⟩ => .ok n.negation
  | _ => .error .unreadable

def aggregate : Call → Except Error (Aggregate Node)
  | ⟨"count_all", []⟩ => .ok .countAll
  | ⟨"agg", [.string s, es]⟩ => return { name := s, arguments := ← r.expressions es }
  | ⟨name, [t]⟩ => do Aggregate.of name (← r.term t)
  | _ => .error .unreadable

def windowCall (w : Window) : Call → Except Error Window
  | ⟨"partition_by", [ts]⟩ => do w.partitionedBy (← r.terms ts)
  | ⟨"order_by", [.string s]⟩ => w.orderedBy s
  | _ => .error .unreadable

/-- An aggregate until it gets a name, and a node from then on. -/
def aggregateCall : Aggregate Node ⊕ Node → Call → Except Error (Aggregate Node ⊕ Node)
  | .inl a, ⟨"distinct", []⟩ => .ok (.inl a.distinctValues)
  | .inl a, ⟨"filter_where", [e]⟩ => return .inl (a.filtered (← r.expression e))
  | .inl a, ⟨"order_by", [.string s]⟩ => return .inl (← a.orderedBy s)
  | .inl a, ⟨"over", [ws]⟩ => return .inl (a.overWindow (← calls (windowCall r) {} ws))
  | .inl a, ⟨"as", [.string s]⟩ => .ok (.inr (a.node.named s))
  | _, _ => .error .unreadable

def expression (j : Json) : Except Error Node :=
  let followed := (j.get? "calls").getD .null
  match j with
  | .object ms =>
    match ms.filter fun m => m.1 != "calls" with
    | [("agg", a)] => do
      let a ← aggregate r (← call a)
      match ← calls (aggregateCall r) (.inl a) followed with
      | .inl a => return a.node
      | .inr n => return n
    | [m] => do calls (follow r) (← base r m) followed
    | _ => .error .unreadable
  | _ => .error .unreadable

end SqlTree.Script
