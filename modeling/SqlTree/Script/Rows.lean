import SqlTree.Script.Argument
import SqlTree.Build.Draft

/-!
# Calls on statements about rows

The calls of selects, inserts, updates, deletes and merges by their names.
-/

namespace SqlTree.Script

variable (r : Readers)

def joinCall (j : JoinCondition) : Call → Except Error JoinCondition
  | ⟨"on", [a, .string op, b]⟩ => do
    let (l, v) ← r.comparison a b
    j.on l op v
  | ⟨"on_ref", [a, .string op, b]⟩ => do
    let (l, m) ← r.columns a b
    j.onColumns l op m
  | ⟨"on_expr", [e]⟩ => return j.onNode (← r.expression e)
  | ⟨"or_on_expr", [e]⟩ => return j.orOnNode (← r.expression e)
  | ⟨"on_true", []⟩ => .ok j.onTrue
  | _ => .error .unreadable

def joinTypes : List (String × JoinType) := [("inner_join", .inner), ("left_join", .left),
  ("right_join", .right), ("full_join", .full)]

def conditionalJoinTypes : List (String × JoinType) := [("inner_join_with", .inner),
  ("left_join_with", .left), ("right_join_with", .right), ("full_join_with", .full),
  ("inner_join_lateral_with", .lateralInner), ("left_join_lateral_with", .lateralLeft)]

def filteredCall {σ : Type} [Filtered σ] (s : σ) : Call → Except Error σ
  | ⟨"where", [a, .string op, b]⟩ => do
    let (l, v) ← r.comparison a b
    Filtered.whereCompare s l op v
  | ⟨"where_ref", [a, .string op, b]⟩ => do
    let (l, m) ← r.columns a b
    Filtered.whereColumns s l op m
  | ⟨"where_expr", [e]⟩ => return Filtered.whereNode s (← r.expression e)
  | ⟨"or_where_expr", [e]⟩ => return Filtered.orWhereNode s (← r.expression e)
  | ⟨"clear_where", []⟩ => .ok (Filtered.clearWhere s)
  | ⟨"cross_join", [t]⟩ => do Filtered.crossJoin s (← r.term t)
  | ⟨name, [t, .string k, .string l]⟩ => do
    Filtered.joinOn s (← readable (joinTypes.lookup name)) (← r.term t) k l
  | ⟨name, [t, cs]⟩ => do
    let joinType ← readable (conditionalJoinTypes.lookup name)
    Filtered.joinWith s joinType (← r.term t) fun j => calls (joinCall r) j cs
  | _ => .error .unreadable

/-- Calls about the rows returned; all others are left to `other`. -/
def returningCall {σ : Type} [Returning σ] (other : σ → Call → Except Error σ) (s : σ) :
    Call → Except Error σ
  | ⟨"returning", [ts]⟩ => do Returning.returning s (← r.terms ts)
  | ⟨"returning_all", []⟩ => .ok (Returning.returningAll s)
  | ⟨"clear_returning", []⟩ => .ok (Returning.clearReturning s)
  | c => other s c

def modifiers : List (String × SelectModifier) := [("distinct", .distinct),
  ("for_update", .forUpdate), ("for_share", .forShare), ("for_key_share", .forKeyShare),
  ("for_no_key_update", .forNoKeyUpdate), ("no_wait", .noWait), ("skip_locked", .skipLocked)]

def setOperators : List (String × SetOperator × Bool) := [("union", .union, false),
  ("union_all", .union, true), ("intersect", .intersect, false),
  ("intersect_all", .intersect, true), ("except", .except, false), ("except_all", .except, true)]

def direction : Json → Except Error (Option OrderDirection)
  | .null => .ok none
  | .string s => return some (← readable (OrderDirection.read? s))
  | _ => .error .unreadable

def nulls : Json → Except Error NullsOrder
  | .string "first" => .ok .first
  | .string "last" => .ok .last
  | _ => .error .unreadable

def rowCount : Json → Except Error UInt32
  | .int n => if 0 ≤ n ∧ n < UInt32.size then .ok n.toNat.toUInt32 else .error .unreadable
  | _ => .error .unreadable

def selectCall (p : Select Node) : Call → Except Error (Select Node)
  | ⟨"having", [a, .string op, b]⟩ => do
    let (l, v) ← r.comparison a b
    p.havingCompare l op v
  | ⟨"having_ref", [a, .string op, b]⟩ => do
    let (l, m) ← r.columns a b
    p.havingColumns l op m
  | ⟨"having_expr", [e]⟩ => return p.havingNode (← r.expression e)
  | ⟨"clear_having", []⟩ => .ok p.clearHaving
  | ⟨"select", [ts]⟩ => do p.select (← r.terms ts)
  | ⟨"select_all", []⟩ => .ok p.selectAll
  | ⟨"select_all_from", [.string s]⟩ => p.selectAllFrom s
  | ⟨"clear_select", []⟩ => .ok p.clearSelect
  | ⟨"from", [ts]⟩ => do p.fromTables (← r.terms ts)
  | ⟨"distinct_on", [ts]⟩ => do p.distinctRowsOn (← r.terms ts)
  | ⟨"for_update_of", [ss]⟩ => do p.forUpdateOf (← strings ss)
  | ⟨"modify_front", [e]⟩ => return p.modifyFront (← r.expression e)
  | ⟨"modify_end", [e]⟩ => return p.modifyBack (← r.expression e)
  | ⟨"group_by", [ts]⟩ => do p.groupedBy (← r.terms ts)
  | ⟨"clear_group_by", []⟩ => .ok p.clearGroups
  | ⟨"order_by", [.string s]⟩ => p.orderedBy s
  | ⟨"order_by_nulls", [.string s, n]⟩ => do p.orderedWithNulls s (← nulls n)
  | ⟨"order_by_expr", [e]⟩ => return p.orderedByNode (← r.expression e) none
  | ⟨"order_by_expr", [e, d]⟩ => return p.orderedByNode (← r.expression e) (← direction d)
  | ⟨"clear_order_by", []⟩ => .ok p.clearOrder
  | ⟨"limit", [v]⟩ => return p.limited (← r.operand v)
  | ⟨"clear_limit", []⟩ => .ok p.clearLimit
  | ⟨"offset", [v]⟩ => return p.skipping (← r.operand v)
  | ⟨"clear_offset", []⟩ => .ok p.clearOffset
  | ⟨"fetch", [v, .string m]⟩ => do p.fetching (← r.operand v) m
  | ⟨"top", [n]⟩ => do p.toppedAt (← rowCount n) none
  | ⟨"top", [n, m]⟩ => do p.toppedAt (← rowCount n) m.string?
  | ⟨"explain", []⟩ => .ok (p.explained none)
  | ⟨"explain_with", [e]⟩ => return p.explained (some (← r.expression e))
  | c =>
    match modifiers.lookup c.name, setOperators.lookup c.name, c.arguments with
    | some m, _, [] => .ok (p.modifier m)
    | _, some (op, all), [q] => return p.combined op (← r.statement q) all
    | _, _, _ => filteredCall r p c

def conflictCall (p : OnConflict Node) : Call → Except Error (OnConflict Node)
  | ⟨"column", [.string s]⟩ => p.onColumns [s]
  | ⟨"columns", [ss]⟩ => do p.onColumns (← strings ss)
  | ⟨"constraint", [.string s]⟩ => p.onConstraint s
  | ⟨"expression", [e]⟩ => return p.onExpression (← r.expression e)
  | ⟨"where", [a, .string op, b]⟩ => do
    let (l, v) ← r.comparison a b
    p.indexWhereCompare l op v
  | ⟨"do_nothing", []⟩ => .ok p.nothing
  | ⟨"do_update_set", [ps]⟩ => do p.updating (← r.pairs ps)
  | ⟨"update_where", [a, .string op, b]⟩ => do
    let (l, v) ← r.comparison a b
    p.updateWhereCompare l op v
  | _ => .error .unreadable

def insertCall : Insert Node → Call → Except Error (Insert Node) :=
  returningCall r fun p c =>
    match c with
    | ⟨"values", [rows]⟩ => do p.ofRows (← rows.items.mapM r.pairs)
    | ⟨"values_from", [rows]⟩ => p.ofDocuments rows.items
    | ⟨"columns", [ss]⟩ => do p.intoColumns (← strings ss)
    | ⟨"expression", [q]⟩ => return p.ofQuery (← r.statement q)
    | ⟨"expression_expr", [e]⟩ => return p.ofQuery (← r.expression e)
    | ⟨"default_values", []⟩ => .ok p.ofDefaults
    | ⟨"ignore", []⟩ => .ok p.ignoring
    | ⟨"on_conflict", [cs]⟩ => p.whenConflict fun o => calls (conflictCall r) o cs
    | ⟨"on_duplicate_key_update", [ps]⟩ => do p.whenDuplicate (← r.pairs ps)
    | ⟨"explain", []⟩ => .ok p.explained
    | _ => .error .unreadable

def updateCall : Update Node → Call → Except Error (Update Node) :=
  returningCall r fun p c =>
    match c with
    | ⟨"set", [.string s, v]⟩ => do p.set s (← r.operand v)
    | ⟨"set_all", [ps]⟩ => do p.setAll (← r.pairs ps)
    | ⟨"set_from", [j]⟩ => p.setDocument j
    | ⟨"from", [ts]⟩ => do p.fromTables (← r.terms ts)
    | ⟨"limit", [v]⟩ => return p.limited (← r.operand v)
    | ⟨"explain", []⟩ => .ok p.explained
    | c => filteredCall r p c

def deleteCall : Delete Node → Call → Except Error (Delete Node) :=
  returningCall r fun p c =>
    match c with
    | ⟨"using", [ts]⟩ => do p.usingTables (← r.terms ts)
    | ⟨"order_by", [.string s]⟩ => p.orderedBy s
    | ⟨"order_by_expr", [e]⟩ => return p.orderedByNode (← r.expression e) none
    | ⟨"order_by_expr", [e, d]⟩ => return p.orderedByNode (← r.expression e) (← direction d)
    | ⟨"limit", [v]⟩ => return p.limited (← r.operand v)
    | ⟨"explain", []⟩ => .ok p.explained
    | c => filteredCall r p c

def mergeCall (p : Merge Node) : Call → Except Error Draft
  | ⟨"using", [t, .string k, .string l]⟩ => do return .merge (← p.usingOn (← r.term t) k l)
  | ⟨"using_with", [t, cs]⟩ => do
    return .merge (← p.usingWith (← r.term t) fun j => calls (joinCall r) j cs)
  | ⟨"when_matched", []⟩ => .ok (.matched (p.whenMatched none))
  | ⟨"when_matched_and", [e]⟩ => return .matched (p.whenMatched (some (← r.expression e)))
  | ⟨"when_not_matched", []⟩ => .ok (.unmatched (p.whenNotMatched none))
  | ⟨"when_not_matched_and", [e]⟩ => return .unmatched (p.whenNotMatched (some (← r.expression e)))
  | ⟨"when_not_matched_by_source", []⟩ => .ok (.matched (p.whenNotMatchedBySource none))
  | ⟨"when_not_matched_by_source_and", [e]⟩ =>
    return .matched (p.whenNotMatchedBySource (some (← r.expression e)))
  | _ => .error .unreadable

def matchedCall (b : Merge.Matched) : Call → Except Error Draft
  | ⟨"then_update_set", [ps]⟩ => do return .merge (← b.update (← r.pairs ps))
  | ⟨"then_delete", []⟩ => .ok (.merge b.delete)
  | ⟨"then_do_nothing", []⟩ => .ok (.merge b.doNothing)
  | _ => .error .unreadable

def unmatchedCall (b : Merge.Unmatched) : Call → Except Error Draft
  | ⟨"then_insert_values", [ps]⟩ => do return .merge (← b.insert (← r.pairs ps))
  | ⟨"then_do_nothing", []⟩ => .ok (.merge b.doNothing)
  | _ => .error .unreadable

end SqlTree.Script
