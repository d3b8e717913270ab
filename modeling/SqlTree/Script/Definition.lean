import SqlTree.Script.Argument
import SqlTree.Build.Draft

/-!
# Calls on definitions

The calls of statements that make, change and drop tables, indexes, schemas and views, by their
names.
-/

namespace SqlTree.Script

variable (r : Readers)

def columnCall (p : ColumnDefinition Node) : Call → Except Error (ColumnDefinition Node)
  | ⟨"primary_key", []⟩ => .ok { p with primaryKey := true }
  | ⟨"auto_increment", []⟩ => .ok { p with autoIncrement := true }
  | ⟨"unique", []⟩ => .ok { p with unique := true }
  | ⟨"nulls_not_distinct", []⟩ => .ok { p with nullsNotDistinct := true }
  | ⟨"not_null", []⟩ => .ok { p with notNull := true }
  | ⟨"unsigned", []⟩ => .ok { p with unsigned := true }
  | ⟨"default_to", [v]⟩ => return p.defaultingTo (← r.operand v)
  | ⟨"check", [e]⟩ => return p.checked (← r.expression e)
  | ⟨"references", [.string s]⟩ => p.referencing s
  | ⟨"on_delete", [.string s]⟩ => p.onDelete s
  | ⟨"on_update", [.string s]⟩ => p.onUpdate s
  | ⟨"generated_always_as", [e]⟩ => return p.generatedAs (← r.expression e)
  | ⟨"generated_always_as_identity", []⟩ => .ok p.identityAlways
  | ⟨"generated_by_default_as_identity", []⟩ => .ok p.identityByDefault
  | ⟨"stored", []⟩ => .ok p.stored
  | _ => .error .unreadable

def foreignKeyCall (k : ForeignKey) : Call → Except Error ForeignKey
  | ⟨"on_delete", [.string s]⟩ => k.onDelete s
  | ⟨"on_update", [.string s]⟩ => k.onUpdate s
  | _ => .error .unreadable

def foreignKey (name : String) (columns : Json) (table : String) (targets actions : Json) :
    Except Error Node := do
  let k ← ForeignKey.begin name (← strings columns) table (← strings targets)
  return (← calls foreignKeyCall k actions).node

def constraint : Call → Except Error Node
  | ⟨"add_primary_key_constraint", [.string s, ss]⟩ => do
    NamedConstraint.primaryKey s (← strings ss)
  | ⟨"add_unique_constraint", [.string s, ss]⟩ => do NamedConstraint.unique s (← strings ss)
  | ⟨"add_check_constraint", [.string s, e]⟩ => do NamedConstraint.check s (← r.expression e)
  | ⟨"add_foreign_key_constraint", [.string s, ss, .string t, ts]⟩ => foreignKey s ss t ts .null
  | ⟨"add_foreign_key_constraint_with", [.string s, ss, .string t, ts, cs]⟩ =>
    foreignKey s ss t ts cs
  | _ => .error .unreadable

def createTableCall (p : CreateTable Node) : Call → Except Error (CreateTable Node)
  | ⟨"add_column", [.string s, .string t]⟩ => p.addColumn s t .ok
  | ⟨"add_column_with", [.string s, .string t, cs]⟩ =>
    p.addColumn s t fun c => calls (columnCall r) c cs
  | ⟨"temporary", []⟩ => .ok { p with temporary := true }
  | ⟨"if_not_exists", []⟩ => .ok { p with ifNotExists := true }
  | ⟨"on_commit", [.string s]⟩ => p.onCommitDo s
  | c => return p.addConstraint (← constraint r c)

/-- The one change of a column. -/
def alterColumnCall (p : AlterColumn Node) : Call → Except Error (AlterColumn Node)
  | ⟨"set_data_type", [.string t]⟩ => p.toType t
  | ⟨"set_default", [v]⟩ => return p.toDefault (← r.operand v)
  | ⟨"drop_default", []⟩ => .ok { p with dropDefault := true }
  | ⟨"set_not_null", []⟩ => .ok { p with setNotNull := true }
  | ⟨"drop_not_null", []⟩ => .ok { p with dropNotNull := true }
  | _ => .error .unreadable

def alterTableCall (p : AlterTable Node) : Call → Except Error (AlterTable Node)
  | ⟨"rename_to", [.string s]⟩ => p.renamedTo s
  | ⟨"set_schema", [.string s]⟩ => p.movedTo s
  | ⟨"add_column", [.string s, .string t]⟩ => p.addColumn s t .ok
  | ⟨"add_column_with", [.string s, .string t, cs]⟩ =>
    p.addColumn s t fun c => calls (columnCall r) c cs
  | ⟨"drop_column", [.string s]⟩ => p.dropColumn s
  | ⟨"rename_column", [.string s, .string t]⟩ => p.renameColumn s t
  | ⟨"alter_column", [.string s, c]⟩ => p.alterColumn s fun q => do alterColumnCall r q (← call c)
  | ⟨"drop_constraint", [.string s]⟩ => p.dropping s false
  | ⟨"drop_constraint_if_exists", [.string s]⟩ => p.dropping s true
  | ⟨"cascade", []⟩ => .ok p.cascading
  | c => return p.withConstraint (← constraint r c)

def createIndexCall (p : CreateIndex Node) : Call → Except Error (CreateIndex Node)
  | ⟨"on", [.string s]⟩ => p.onTable s
  | ⟨"columns", [ss]⟩ => do p.overColumns (← strings ss)
  | ⟨"column", [.string s]⟩ => p.overColumns [s]
  | ⟨"expression", [e]⟩ => return p.overExpression (← r.expression e)
  | ⟨"unique", []⟩ => .ok { p with unique := true }
  | ⟨"nulls_not_distinct", []⟩ => .ok { p with nullsNotDistinct := true }
  | ⟨"if_not_exists", []⟩ => .ok { p with ifNotExists := true }
  | ⟨"using", [.string s]⟩ => p.byMethod s
  | ⟨"where", [a, .string op, b]⟩ => do
    let (l, v) ← r.comparison a b
    p.whereCompare l op v
  | ⟨"where_expr", [e]⟩ => return p.whereNode (← r.expression e)
  | _ => .error .unreadable

def createViewCall (p : CreateView Node) : Call → Except Error (CreateView Node)
  | ⟨"columns", [ss]⟩ => do p.withColumns (← strings ss)
  | ⟨"as", [q]⟩ => do p.showing (← r.statement q)
  | ⟨"or_replace", []⟩ => .ok { p with orReplace := true }
  | ⟨"temporary", []⟩ => .ok { p with temporary := true }
  | ⟨"materialized", []⟩ => .ok { p with materialized := true }
  | ⟨"if_not_exists", []⟩ => .ok { p with ifNotExists := true }
  | _ => .error .unreadable

def definitionCall (n : Node) : Call → Except Error Node
  | ⟨"if_exists", []⟩ => .ok n.ifExists
  | ⟨"if_not_exists", []⟩ => .ok n.ifNotExists
  | ⟨"cascade", []⟩ => .ok n.cascading
  | ⟨"materialized", []⟩ => .ok n.materialized
  | ⟨"on", [.string s]⟩ => n.onTable s
  | _ => .error .unreadable

end SqlTree.Script
