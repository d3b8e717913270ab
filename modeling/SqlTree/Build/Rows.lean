import SqlTree.Build.Clause

/-!
# Rows to insert

Rows as pairs of a column and a value, in any order and with gaps, brought under one list of
columns.
-/

namespace SqlTree

/-- A row as it is given: columns with their values. -/
abbrev GivenRow := List (String × Node)

namespace GivenRow

/-- Names not met before, in the order they are met. -/
def newNames (seen : List String) : List String → List String
  | [] => []
  | n :: ns => if seen.contains n then newNames seen ns else n :: newNames (n :: seen) ns

/-- The columns of all rows, in the order of their first appearance. -/
def columns (rows : List GivenRow) : List String :=
  newNames [] (rows.flatMap fun row => row.map Prod.fst)

/-- The value a row gives for a column, the last one if there are several. -/
def get? (row : GivenRow) (column : String) : Option Node := row.reverse.lookup column

def value? : Option Node → Option Value
  | some ⟨.value v false⟩ => some v
  | _ => none

/-- The values of a row under some columns, plain if all of them are; a missing one is the default
of its column. -/
def aligned (columns : List String) (row : GivenRow) : Node :=
  let slots := columns.map row.get?
  match slots.mapM value? with
  | some vs => ⟨.valueList (.primitive vs)⟩
  | none => ⟨.valueList (.expressions (slots.map fun n => n.getD ⟨.defaultInsertValue⟩))⟩

/-- The rows under their columns. -/
def values (rows : List GivenRow) : Node := ⟨.values (rows.map (aligned (columns rows)))⟩

def columnNodes (rows : List GivenRow) : List Node := (columns rows).map .column

/-- The members of an object as a row of parameters. -/
def ofJson? : Json → Option GivenRow
  | .object ms => some (ms.map fun (k, j) => (k, .bound (.ofJson j)))
  | _ => none

def ofJson (j : Json) : Except Error GivenRow :=
  match ofJson? j with
  | some row => .ok row
  | none => .error (.validation (.insertRow j.compact))

end GivenRow

end SqlTree
