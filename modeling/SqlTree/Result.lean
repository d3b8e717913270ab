import SqlTree.Json.Basic

/-!
# Results

What a database answers to a statement.
-/

namespace SqlTree

/-- A row: its columns in the order of their names. -/
abbrev Row := List (String × Json)

structure QueryResult where
  rows : List Row := []
  /-- The key of the last row inserted. -/
  insertId : Option Int := none
  /-- Rows an update or delete applied to. -/
  affected : Option Nat := none
  /-- Rows an update really changed. -/
  changed : Option Nat := none
  deriving Inhabited, Repr

end SqlTree
