import SqlTree.Tree.Names
import SqlTree.Tree.Walk

/-!
# Schemas for unqualified tables

Every table of a statement that has no schema gets the same one, except the tables that a with
clause defines; a qualifier of a column gets it too if a table of that name does.
-/

namespace SqlTree.WithSchema

/-- The tables a node names by standing there, unless it only qualifies a column. -/
def tableAt (n : Node) (ancestors : List Node) : List String :=
  match n.tableName?, ancestors.getLast? with
  | some _, some ⟨.reference ..⟩ => []
  | some (none, name), _ => [name]
  | _, _ => []

/-- The unqualified tables of a statement. -/
def tables (root : Node) : List String :=
  root.visit.flatMap fun (n, ancestors) => tableAt n ancestors

/-- The tables defined in a statement. -/
def defined (root : Node) : List String := root.visit.flatMap fun (n, _) => n.definedTables

/-- Statements whose own name takes a schema without being a table. -/
def namesObject (ancestors : List Node) : Bool :=
  match ancestors.getLast? with
  | some ⟨.createView _⟩ => true
  | some ⟨.dropView ..⟩ => true
  | some ⟨.dropIndex ..⟩ => true
  | _ => false

def qualify (schema : String) (tables defined : List String) (n : Node) (ancestors : List Node) :
    Node :=
  match n with
  | ⟨.schemableIdentifier none name⟩ =>
    match name.identifierName? with
    | some s =>
      if defined.contains s then n
      else if tables.contains s || namesObject ancestors then
        ⟨.schemableIdentifier (some (.identifier schema)) name⟩
      else n
    | none => n
  | _ => n

/-- The statement with `schema` in front of its tables. -/
def apply (schema : String) (root : Node) : Except Error Node :=
  root.transform (qualify schema (tables root) (defined root))

end SqlTree.WithSchema
