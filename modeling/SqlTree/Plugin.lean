import SqlTree.Render.Compile
import SqlTree.Result
import SqlTree.Pass.CamelCase
import SqlTree.Pass.DeduplicateJoins
import SqlTree.Pass.WithSchema

/-!
# Plugins

Changes of outgoing statements and incoming results, made in the order of a list.
-/

namespace SqlTree

/-- A change of statements and of their results, in a monad in which it may fail. -/
structure Hook (M : Type → Type) [Monad M] where
  outbound : Node → M Node
  inbound : QueryResult → M QueryResult := pure

/-- A change without effects. -/
abbrev Plugin := Hook (Except Error)

namespace Plugin

def camelCase (o : CamelCase) : Plugin where
  outbound := o.apply
  inbound r := .ok { r with rows := r.rows.map o.camelRow }

def deduplicateJoins : Plugin where
  outbound := DeduplicateJoins.apply

def withSchema (schema : String) : Plugin where
  outbound := WithSchema.apply schema

section

variable {M : Type → Type} [Monad M]

/-- The statement after every plugin; each must keep its kind. -/
def sendAll [MonadExcept Error M] : List (Hook M) → Node → M Node
  | [], n => pure n
  | p :: ps, n => do
    let m ← p.outbound n
    if m.kind = n.kind then sendAll ps m else throw (.pluginContract n.kind m.kind)

/-- The result after every plugin. -/
def receiveAll : List (Hook M) → QueryResult → M QueryResult
  | [], r => pure r
  | p :: ps, r => do receiveAll ps (← p.inbound r)

/-- The compiled statement after every plugin. -/
def compileWith [MonadExcept Error M] [MonadLiftT (Except Error) M] (plugins : List (Hook M))
    (d : Dialect) (n : Node) : M Compiled := do
  (← sendAll plugins n).compile d

end

end Plugin

end SqlTree
