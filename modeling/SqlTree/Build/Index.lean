import SqlTree.Build.Clause

/-!
# Index definitions

Indexes over columns and expressions, over all rows of a table or those that meet a condition.
-/

namespace SqlTree.CreateIndex

/-- A column of an index, which may have a direction. -/
def column (input : String) : Except Error Node :=
  match Text.splitOnce? [' '] (Text.trimChars input.toList) with
  | some (left, right) => do
    let c ← Read.column (.ofList left)
    match OrderDirection.read? (.ofList right) with
    | some d => return ⟨.raw ["", " " ++ d.keyword] [c]⟩
    | none => .error (.invalidOrderDirection input (.ofList right))
  | none => Read.column input

def isMethodChar (c : Char) : Bool := c.isAlphanum || c == '_'

/-- The name of an index method in lower case: ASCII letters, digits and underscores. -/
def readMethod (input : String) : Except Error String :=
  let cs := Text.trimChars input.toList
  if cs.isEmpty || !cs.all isMethodChar then .error (.validation (.indexMethod input))
  else .ok (Text.lowercase (.ofList cs))

variable (p : CreateIndex Node)

def node : Node := ⟨.createIndex p⟩

def onTable (table : String) : Except Error (CreateIndex Node) := do
  return { p with table := some (← Read.table table) }

def overColumns (columns : List String) : Except Error (CreateIndex Node) := do
  return { p with columns := p.columns ++ (← columns.mapM column) }

def overExpression (n : Node) : CreateIndex Node := { p with columns := p.columns ++ [n.parens] }

def byMethod (name : String) : Except Error (CreateIndex Node) := do
  return { p with method := some (← readMethod name) }

def whereNode (c : Node) : CreateIndex Node :=
  { p with whereClause := some (.whereBoth p.whereClause c) }

/-- Only rows where a column compares with a value, which is written into the definition. -/
def whereCompare (left : Term) (operator : String) (right : Operand) :
    Except Error (CreateIndex Node) := do
  return p.whereNode (← left.compare operator (.node right.inline))

end SqlTree.CreateIndex
