import SqlTree.Error
import SqlTree.Text.Split
import SqlTree.Tree.Keyword
import SqlTree.Tree.Names

/-!
# References in text

Names of columns and tables as they are given in text: parts between dots, an alias behind ` as `, a
direction behind a blank.  Blanks around parts do not count.
-/

namespace SqlTree.Read

/-- Parts between dots, none of them empty. -/
def parts? (cs : List Char) : Option (List String) :=
  let ps := (Text.splitAll '.' cs).map Text.trimChars
  if ps.any List.isEmpty then none else some (ps.map String.ofList)

/-- A column, or all columns for `*`. -/
def columnOrAll (name : String) : Node := if name = "*" then ⟨.selectAll⟩ else .column name

/-- `column`, `table.column` or `schema.table.column`; `*` is every column. -/
def reference (input : String) : Except Error Node :=
  let cs := Text.trimChars input.toList
  if cs.isEmpty then .error (.invalidReference input .emptyReference)
  else match parts? cs with
    | none => .error (.invalidReference (.ofList cs) .emptyIdentifier)
    | some [c] => .ok (columnOrAll c)
    | some [t, c] => .ok ⟨.reference (some (.table none t)) (columnOrAll c)⟩
    | some [s, t, c] => .ok ⟨.reference (some (.table (some s) t)) (columnOrAll c)⟩
    | some _ => .error (.invalidReference input .tooManyParts)

/-- `table` or `schema.table`, as schema and name. -/
def tableParts (input : String) : Except Error (Option String × String) :=
  let cs := Text.trimChars input.toList
  if cs.isEmpty then .error (.invalidReference input .emptyTable)
  else match parts? cs with
    | none => .error (.invalidReference (.ofList cs) .emptyIdentifier)
    | some [t] => .ok (none, t)
    | some [s, t] => .ok (some s, t)
    | some _ => .error (.invalidReference input .tooManyTableParts)

def table (input : String) : Except Error Node := do
  let (schema, name) ← tableParts input
  return .table schema name

/-- Names of indexes and views, which may have a schema. -/
def schemable (input : String) : Except Error Node := do
  let (schema, name) ← tableParts input
  return .schemable schema name

/-- What stands before ` as `, and the alias behind it. -/
def splitAlias (input : String) : Except Error (String × Option String) :=
  let mark := " as ".toList
  match Text.splitOnce? mark input.toList with
  | some (left, right) =>
    let left := Text.trimChars left
    let right := Text.trimChars right
    if left.isEmpty || right.isEmpty then .error (.invalidReference input .emptyAliasSide)
    else if Text.holds mark right then .error (.invalidReference input .secondAlias)
    else .ok (.ofList left, some (.ofList right))
  | none => .ok (Text.trim input, none)

def withAlias (n : Node) : Option String → Node
  | some name => n.named name
  | none => n

/-- A reference that may have an alias. -/
def aliasedReference (input : String) : Except Error Node := do
  let (left, name) ← splitAlias input
  return withAlias (← reference left) name

/-- A table that may have an alias. -/
def tableExpression (input : String) : Except Error Node := do
  let (left, name) ← splitAlias input
  return withAlias (← table left) name

/-- A reference that may have a direction, which must be exact. -/
def orderBy (input : String) : Except Error Node :=
  let cs := Text.trimChars input.toList
  match Text.splitOnce? [' '] cs with
  | some (left, right) =>
    match OrderDirection.read? (.ofList right) with
    | some d => do return ⟨.orderByItem (← reference (.ofList left)) (some d) none⟩
    | none => .error (.invalidOrderDirection input (.ofList right))
  | none => do return ⟨.orderByItem (← reference (.ofList cs)) none none⟩

/-- The columns between the parentheses of a table name, which must be closed at the end. -/
def columnList (input : String) (rest : List Char) : Except Error (List Node) :=
  if rest.getLast? = some ')' then
    let columns := (Text.splitAll ',' rest.dropLast).map Text.trimChars
    if columns.any List.isEmpty then .error (.invalidReference input .emptyColumn)
    else .ok (columns.map fun c => .column (.ofList c))
  else .error (.invalidReference input .openColumnList)

/-- `name` or `name(column, …)`, the name without a schema. -/
def commonTableName (input : String) : Except Error Node := do
  let cs := Text.trimChars input.toList
  let (name, columns) ← match Text.splitOnce? ['('] cs with
    | some (name, rest) => do pure (Text.trimChars name, ← columnList input rest)
    | none => pure (cs, [])
  if name.isEmpty || name.contains '.' then throw (.invalidReference input .badTableName)
  return ⟨.commonTableExpressionName (.table none (.ofList name)) columns⟩

/-- The name of a column without a table. -/
def columnName (input : String) : Except Error String :=
  let cs := Text.trimChars input.toList
  if cs.isEmpty || cs.contains '.' then .error (.invalidReference input .notBareColumn)
  else .ok (.ofList cs)

def column (input : String) : Except Error Node := do return .column (← columnName input)

/-- A name that is never qualified. -/
def identifier (input : String) : Except Error Node :=
  let cs := Text.trimChars input.toList
  if cs.isEmpty then .error (.invalidReference input .emptyIdentifier)
  else .ok (.identifier (.ofList cs))

/-- The table and the column of a foreign key, the column behind the last dot. -/
def foreignColumn (input : String) : Except Error (Node × Node) :=
  match Text.splitOnce? ['.'] input.toList.reverse with
  | some (right, left) => do
    let t ← table (.ofList left.reverse)
    return (t, ← column (.ofList right.reverse))
  | none => .error (.invalidReference input .noTablePart)

end SqlTree.Read
