import SqlTree.Dialect

/-!
# Transaction settings

How a transaction is to see and change data, and the statements that begin one.
-/

namespace SqlTree

inductive IsolationLevel where
  | readUncommitted
  | readCommitted
  | repeatableRead
  | serializable
  | snapshot
  deriving DecidableEq, Repr, Inhabited

namespace IsolationLevel

def name : IsolationLevel → String
  | .readUncommitted => "read_uncommitted"
  | .readCommitted => "read_committed"
  | .repeatableRead => "repeatable_read"
  | .serializable => "serializable"
  | .snapshot => "snapshot"

def keyword : IsolationLevel → String
  | .readUncommitted => "read uncommitted"
  | .readCommitted => "read committed"
  | .repeatableRead => "repeatable read"
  | .serializable => "serializable"
  | .snapshot => "snapshot"

instance : Named IsolationLevel :=
  ⟨[.readUncommitted, .readCommitted, .repeatableRead, .serializable, .snapshot], name⟩

end IsolationLevel

inductive AccessMode where
  | readOnly
  | readWrite
  deriving DecidableEq, Repr, Inhabited

namespace AccessMode

def name : AccessMode → String
  | .readOnly => "read_only"
  | .readWrite => "read_write"

def keyword : AccessMode → String
  | .readOnly => "read only"
  | .readWrite => "read write"

instance : Named AccessMode := ⟨[.readOnly, .readWrite], name⟩

end AccessMode

structure TransactionSettings where
  isolation : Option IsolationLevel := none
  access : Option AccessMode := none
  deriving DecidableEq, Repr

namespace TransactionSettings

variable (s : TransactionSettings)

def isolationWords : List String := s.isolation.toList.map fun l => "isolation level " ++ l.keyword

def accessWords : List String := s.access.toList.map AccessMode.keyword

/-- The modes that are set, with commas between them. -/
def modes : String := ", ".intercalate (s.isolationWords ++ s.accessWords)

end TransactionSettings

/-- The statements that begin a transaction.  Some dialects leave out settings they lack. -/
def Dialect.beginStatements (d : Dialect) (s : TransactionSettings) : List String :=
  match d with
  | .postgres => if s.modes = "" then ["begin"] else ["start transaction " ++ s.modes]
  | .mysql => if s.modes = "" then ["begin"] else ["set transaction " ++ s.modes, "begin"]
  | .sqlite => ["begin"]
  | .mssql =>
    s.isolationWords.map (fun words => "set transaction " ++ words) ++ ["begin transaction"]
  | .oracle => ["set transaction read write"]

end SqlTree
