import SqlTree.Script.Definition
import SqlTree.Script.Expression
import SqlTree.Script.Rows

/-!
# Reading scripts

Scripts are nested in one another no deeper than the document is.
-/

namespace SqlTree.Script

variable (r : Readers)

def withCall (o : Start) : Call → Except Error Start
  | ⟨"with", [.string s, q]⟩ => do o.withQuery s (← r.statement q) none false
  | ⟨"with_recursive", [.string s, q]⟩ => do o.withQuery s (← r.statement q) none true
  | ⟨"with_materialized", [.string s, q, .bool b]⟩ => do
    o.withQuery s (← r.statement q) (some b) false
  | _ => .error .unreadable

def startCall (o : Start) : Call → Except Error Draft
  | ⟨"select_from", [t]⟩ => do return .select (← o.selectFrom [← r.term t])
  | ⟨"select_from_tables", [ts]⟩ => do return .select (← o.selectFrom (← r.terms ts))
  | ⟨"select_no_from", []⟩ => .ok (.select o.selectWithoutTable)
  | ⟨"insert_into", [.string s]⟩ => return .insert (← o.insertInto s false)
  | ⟨"replace_into", [.string s]⟩ => return .insert (← o.insertInto s true)
  | ⟨"update_table", [t]⟩ => do return .update (← o.updateTable (← r.term t))
  | ⟨"delete_from", [t]⟩ => do return .delete (← o.deleteFrom [← r.term t])
  | ⟨"delete_from_tables", [ts]⟩ => do return .delete (← o.deleteFrom (← r.terms ts))
  | ⟨"merge_into", [t]⟩ => do return .merge (← o.mergeInto (← r.term t))
  | ⟨"create_table", [.string s]⟩ => return .createTable (← Start.createTable s)
  | ⟨"alter_table", [.string s]⟩ => return .alterTable (← Start.alterTable s)
  | ⟨"create_index", [.string s]⟩ => return .createIndex (← Start.createIndex s)
  | ⟨"create_view", [.string s]⟩ => return .createView (← Start.createView s)
  | ⟨"drop_table", [.string s]⟩ => return .definition (← Start.dropTable s)
  | ⟨"drop_index", [.string s]⟩ => return .definition (← Start.dropIndex s)
  | ⟨"create_schema", [.string s]⟩ => return .definition (← Start.createSchema s)
  | ⟨"drop_schema", [.string s]⟩ => return .definition (← Start.dropSchema s)
  | ⟨"drop_view", [.string s]⟩ => return .definition (← Start.dropView s)
  | _ => .error .unreadable

/-- The draft at the start of a script. -/
def start (j : Json) : Except Error Draft := do
  let o ← calls (withCall r) {} ((j.get? "with").getD .null)
  startCall r o (← call ((j.get? "start").getD .null))

def draftCall : Draft → Call → Except Error Draft
  | .select p, c => return .select (← selectCall r p c)
  | .insert p, c => return .insert (← insertCall r p c)
  | .update p, c => return .update (← updateCall r p c)
  | .delete p, c => return .delete (← deleteCall r p c)
  | .merge p, c => mergeCall r p c
  | .matched b, c => matchedCall r b c
  | .unmatched b, c => unmatchedCall r b c
  | .createTable p, c => return .createTable (← createTableCall r p c)
  | .alterTable p, c => return .alterTable (← alterTableCall r p c)
  | .createIndex p, c => return .createIndex (← createIndexCall r p c)
  | .createView p, c => return .createView (← createViewCall r p c)
  | .definition n, c => return .definition (← definitionCall n c)

/-- The draft at the end of a script. -/
def draft (j : Json) : Except Error Draft := do
  calls (draftCall r) (← start r j) ((j.get? "calls").getD .null)

def statement (j : Json) : Except Error Node := do readable (← draft r j).node?

/-- Readers of scripts nested no deeper than that. -/
def readers : Nat → Readers
  | 0 => ⟨fun _ => .error .unreadable, fun _ => .error .unreadable, fun _ => .error .unreadable⟩
  | n + 1 =>
    let r := readers n
    ⟨expression r, operand r, statement r⟩

/-- Readers of the scripts in a document. -/
def readersOf (j : Json) : Readers := readers (j.depth + 1)

end SqlTree.Script
