import SqlTree.Build.Expression

/-!
# Dropping definitions

Statements that drop a table, index, schema or view, and the one that makes a schema.  Each is a
name with a few words, which can be put on in any order.
-/

namespace SqlTree.Node

def dropTable (table : Node) : Node := ⟨.dropTable table false false⟩

def dropIndex (name : Node) : Node := ⟨.dropIndex name none false false⟩

def createSchema (name : Node) : Node := ⟨.createSchema name false⟩

def dropSchema (name : Node) : Node := ⟨.dropSchema name false false⟩

def dropView (name : Node) : Node := ⟨.dropView name false false false⟩

/-- Passes over what does not exist. -/
def ifExists : Node → Node
  | ⟨.dropTable table _ cascade⟩ => ⟨.dropTable table true cascade⟩
  | ⟨.dropIndex name table _ cascade⟩ => ⟨.dropIndex name table true cascade⟩
  | ⟨.dropSchema name _ cascade⟩ => ⟨.dropSchema name true cascade⟩
  | ⟨.dropView name _ cascade materialized⟩ => ⟨.dropView name true cascade materialized⟩
  | n => n

/-- Passes over what exists already. -/
def ifNotExists : Node → Node
  | ⟨.createSchema name _⟩ => ⟨.createSchema name true⟩
  | n => n

/-- Drops also what depends on it. -/
def cascading : Node → Node
  | ⟨.dropTable table ifExists _⟩ => ⟨.dropTable table ifExists true⟩
  | ⟨.dropIndex name table ifExists _⟩ => ⟨.dropIndex name table ifExists true⟩
  | ⟨.dropSchema name ifExists _⟩ => ⟨.dropSchema name ifExists true⟩
  | ⟨.dropView name ifExists _ materialized⟩ => ⟨.dropView name ifExists true materialized⟩
  | n => n

/-- A view that keeps its rows. -/
def materialized : Node → Node
  | ⟨.dropView name ifExists cascade _⟩ => ⟨.dropView name ifExists cascade true⟩
  | n => n

/-- The table of the index. -/
def onTable (n : Node) (table : String) : Except Error Node := do
  let t ← Read.table table
  return match n with
    | ⟨.dropIndex name _ ifExists cascade⟩ => ⟨.dropIndex name (some t) ifExists cascade⟩
    | n => n

end SqlTree.Node
