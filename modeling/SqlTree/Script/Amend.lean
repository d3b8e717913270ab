import SqlTree.Script.Argument
import SqlTree.Build.Select
import SqlTree.Build.Update
import SqlTree.Build.Insert
import SqlTree.Render.Layout

/-!
# Calls on trees

Trees amended by calls whose arguments are trees too, and what can be told about a node at a glance.
-/

namespace SqlTree.Script

/-- A node of one kind, given as its fields. -/
def record (k : Kind) (j : Json) : Except Error Node := readable (Node.ofRecord? k j)

def records (k : Kind) (j : Json) : Except Error (List Node) := j.items.mapM (record k)

def trees (j : Json) : Except Error (List Node) := j.items.mapM tree

def optionalRecord (k : Kind) : Json → Except Error (Option Node)
  | .null => .ok none
  | j => return some (← record k j)

def amendFiltered {σ : Type} [Filtered σ] (s : σ) : Call → Except Error σ
  | ⟨"with_where", [c]⟩ => return Filtered.whereNode s (← tree c)
  | ⟨"with_or_where", [c]⟩ => return Filtered.orWhereNode s (← tree c)
  | ⟨"without_where", []⟩ => .ok (Filtered.clearWhere s)
  | ⟨"with_join", [j]⟩ => return Filtered.addJoin s (← record .join j)
  | _ => .error .unreadable

def amendReturning {σ : Type} [Returning σ] (other : σ → Call → Except Error σ) (s : σ) :
    Call → Except Error σ
  | ⟨"with_returning", [ns]⟩ => do
    let items := Node.more (Returning.returned s) (← records .selection ns)
    return Returning.setReturned s (some ⟨.returning items⟩)
  | ⟨"set_returning", [n]⟩ => do
    return Returning.setReturned s (← optionalRecord .returning n)
  | c => other s c

def amendSelect (p : Select Node) : Call → Except Error (Select Node)
  | ⟨"set_with", [n]⟩ => return { p with withClause := ← optionalRecord .withClause n }
  | ⟨"with_selections", [ns]⟩ => do
    return { p with selections := p.selections ++ (← records .selection ns) }
  | ⟨"without_selections", []⟩ => .ok p.clearSelect
  | ⟨"with_froms", [ns]⟩ => do return p.fromNodes (← trees ns)
  | ⟨"with_distinct_on", [ns]⟩ => do return p.distinctNodes (← trees ns)
  | ⟨"with_group_by", [n]⟩ => do
    return { p with groupBy := some ⟨.groupBy (Node.more p.groupBy (← record .groupBy n).items)⟩ }
  | ⟨"with_having", [n]⟩ => return { p with having := some (← record .having n) }
  | ⟨"with_limit", [n]⟩ => return { p with limit := some (← record .limit n) }
  | ⟨"without_limit", []⟩ => .ok p.clearLimit
  | ⟨"with_set_operation", [n]⟩ => do
    return { p with setOperations := p.setOperations ++ [← record .setOperation n] }
  | c => amendFiltered p c

def amendInsert : Insert Node → Call → Except Error (Insert Node) :=
  amendReturning fun p c =>
    match c with
    | ⟨"set_with", [n]⟩ => do return { p with withClause := ← optionalRecord .withClause n }
    | _ => .error .unreadable

def amendUpdate : Update Node → Call → Except Error (Update Node) :=
  amendReturning fun p c =>
    match c with
    | ⟨"set_with", [n]⟩ => do return { p with withClause := ← optionalRecord .withClause n }
    | ⟨"with_froms", [ns]⟩ => do
      return { p with fromClause := some (.moreFrom p.fromClause (← trees ns)) }
    | ⟨"with_limit", [n]⟩ => do return { p with limit := some (← record .limit n) }
    | c => amendFiltered p c

def amendDelete : Delete Node → Call → Except Error (Delete Node) :=
  amendReturning fun p c =>
    match c with
    | ⟨"set_with", [n]⟩ => do return { p with withClause := ← optionalRecord .withClause n }
    | ⟨"with_limit", [n]⟩ => do return { p with limit := some (← record .limit n) }
    | c => amendFiltered p c

def amend (n : Node) (c : Call) : Except Error Node := do
  match n, c with
  | ⟨.selectQuery p⟩, c => return (← amendSelect p c).node
  | ⟨.insertQuery p⟩, c => return (← amendInsert p c).node
  | ⟨.updateQuery p⟩, c => return (← amendUpdate p c).node
  | ⟨.deleteQuery p⟩, c => return (← amendDelete p c).node
  | ⟨.mergeQuery p⟩, ⟨"set_with", [m]⟩ =>
    return ⟨.mergeQuery { p with withClause := ← optionalRecord .withClause m }⟩
  | ⟨.whereClause _⟩, ⟨"and", [m]⟩ => return .whereBoth (some n) (← tree m)
  | ⟨.whereClause _⟩, ⟨"or", [m]⟩ => return .whereEither (some n) (← tree m)
  | ⟨.having _⟩, ⟨"and", [m]⟩ => return .havingBoth (some n) (← tree m)
  | ⟨.having _⟩, ⟨"or", [m]⟩ => return .havingEither (some n) (← tree m)
  | ⟨.join t table on⟩, ⟨"with_on", [m]⟩ => return ⟨.join t table (some (.onBoth on (← tree m)))⟩
  | ⟨.join t table on⟩, ⟨"with_or_on", [m]⟩ =>
    return ⟨.join t table (some (.onEither on (← tree m)))⟩
  | ⟨.withClause qs r⟩, ⟨"with_expression", [m]⟩ =>
    return ⟨.withClause (qs ++ [← record .commonTableExpression m]) r⟩
  | ⟨.fromClause _⟩, ⟨"with_froms", [ms]⟩ => return .moreFrom (some n) (← trees ms)
  | ⟨.orderBy _⟩, ⟨"with_items", [ms]⟩ =>
    return .moreOrder (some n) (← records .orderByItem ms)
  | ⟨.table ⟨.schemableIdentifier _ name⟩⟩, ⟨"schema", [.string s]⟩ =>
    return ⟨.table ⟨.schemableIdentifier (some (.identifier s)) name⟩⟩
  | _, _ => .error .unreadable

/-- A node made of another one, or of a list. -/
def fresh (name : String) (j : Json) : Except Error Node := do
  match name with
  | "where_and" => return .whereBoth none (← tree j)
  | "where_or" => return .whereEither none (← tree j)
  | "having_and" => return .havingBoth none (← tree j)
  | "having_or" => return .havingEither none (← tree j)
  | "select" => return (Select.begin (some (← trees j)) none).node
  | "delete" => return (Delete.begin (← trees j) none).node
  | "modifier" => return ⟨.selectModifier none (some (← tree j)) []⟩
  | _ => .error .unreadable

def optionalText : Option String → Json
  | some s => .string s
  | none => .null

/-- Names, sizes and ranks of the nodes that have one; of others, whether they are statements. -/
def glance (n : Node) : Json :=
  match n with
  | ⟨.table _⟩ =>
    match n.tableName? with
    | some (schema, name) => .array [.string name, optionalText schema]
    | none => .null
  | ⟨.column _⟩ => optionalText n.columnName?
  | ⟨.aliased ..⟩ => optionalText n.aliasName?
  | ⟨.valueList (.primitive vs)⟩ => .array [.int vs.length, .bool vs.isEmpty]
  | ⟨.valueList (.expressions ns)⟩ => .array [.int ns.length, .bool ns.isEmpty]
  | ⟨.selectModifier ..⟩ => .int (Layout.modifierPriority n)
  | ⟨.withClause ..⟩ => .array (n.definedTables.map .string)
  | n => .bool n.kind.isStatement

end SqlTree.Script
