import SqlTree.Tree.Node

/-!
# Names in trees

Nodes for names of schemas, tables and columns, and the names such nodes hold.
-/

namespace SqlTree.Node

def identifier (name : String) : Node := ⟨.identifier name⟩

def schemable (schema : Option String) (name : String) : Node :=
  ⟨.schemableIdentifier (schema.map identifier) (identifier name)⟩

def table (schema : Option String) (name : String) : Node := ⟨.table (schemable schema name)⟩

def column (name : String) : Node := ⟨.column (identifier name)⟩

/-- A name for a node. -/
def named (n : Node) (name : String) : Node := ⟨.aliased n (identifier name)⟩

def identifierName? : Node → Option String
  | ⟨.identifier s⟩ => some s
  | _ => none

/-- The schema and the name in a node that may have a schema. -/
def schemableName? : Node → Option (Option String × String)
  | ⟨.schemableIdentifier none ⟨.identifier s⟩⟩ => some (none, s)
  | ⟨.schemableIdentifier (some ⟨.identifier schema⟩) ⟨.identifier s⟩⟩ => some (some schema, s)
  | _ => none

def tableName? : Node → Option (Option String × String)
  | ⟨.table t⟩ => t.schemableName?
  | _ => none

def columnName? : Node → Option String
  | ⟨.column c⟩ => c.identifierName?
  | _ => none

/-- The name given to a node, if it is a plain one. -/
def aliasName? : Node → Option String
  | ⟨.aliased _ name⟩ => name.identifierName?
  | _ => none

/-- The table a common table expression defines. -/
def definedTable? : Node → Option String
  | ⟨.commonTableExpression ⟨.commonTableExpressionName t _⟩ _ _⟩ => t.tableName?.map Prod.snd
  | _ => none

/-- The tables a with clause defines. -/
def definedTables : Node → List String
  | ⟨.withClause es _⟩ => es.filterMap definedTable?
  | _ => []

@[simp] theorem identifierName?_identifier (s : String) :
    (identifier s).identifierName? = some s := rfl

@[simp] theorem columnName?_column (s : String) : (column s).columnName? = some s := rfl

@[simp] theorem tableName?_table (schema : Option String) (s : String) :
    (table schema s).tableName? = some (schema, s) := by cases schema <;> rfl

end SqlTree.Node
