import SqlTree.Text.Lowercase
import SqlTree.Value.Basic
import SqlTree.Error
import SqlTree.Tree.Named

/-!
# Dialects

The databases statements are written for, and everything in which their texts differ.
-/

namespace SqlTree

inductive Dialect where
  | postgres
  | mysql
  | sqlite
  | mssql
  | oracle
  deriving DecidableEq, Repr, Inhabited

/-- How an insert passes over rows that conflict. -/
inductive IgnoreSpelling where
  /-- Words in place of `insert`. -/
  | words (s : String)
  /-- `on conflict do nothing` after the rows. -/
  | onConflictDoNothing
  | unsupported
  deriving DecidableEq, Repr

/-- How a select is cut to a window of its rows. -/
inductive Pagination where
  /-- `limit n offset m` -/
  | limitOffset
  /-- `offset m rows fetch next n rows only` -/
  | fetchNext
  /-- `top(n)` without an offset, `fetch next` with one. -/
  | topOrFetch
  deriving DecidableEq, Repr

namespace Dialect

def all : List Dialect := [.postgres, .mysql, .sqlite, .mssql, .oracle]

def name : Dialect → String
  | .postgres => "postgres"
  | .mysql => "mysql"
  | .sqlite => "sqlite"
  | .mssql => "mssql"
  | .oracle => "oracle"

instance : Named Dialect := ⟨all, name⟩

/-- The two marks around an identifier. -/
def marks : Dialect → Char × Char
  | .mysql => ('\x60', '\x60')
  | .mssql => ('[', ']')
  | _ => ('"', '"')

def quote (d : Dialect) (name : String) : String :=
  Text.enclosed d.marks.1 d.marks.2 name.toList

/-- The place of the parameter with that number, counted from 1. -/
def placeholder : Dialect → Nat → String
  | .postgres, n => "$" ++ toString n
  | .mssql, n => "@" ++ toString n
  | .oracle, n => ":" ++ toString n
  | _, _ => "?"

def autoIncrement : Dialect → String
  | .mysql => "auto_increment"
  | .sqlite => "autoincrement"
  | .mssql => "identity"
  | _ => "generated by default as identity"

def insertIgnore : Dialect → IgnoreSpelling
  | .postgres => .onConflictDoNothing
  | .mysql => .words "insert ignore"
  | .sqlite => .words "insert or ignore"
  | _ => .unsupported

/-- What stands for a column's default inside a row. -/
def defaultInsertValue : Dialect → String
  | .sqlite => "null"
  | _ => "default"

def boolLiteral (d : Dialect) (b : Bool) : String :=
  match d, b with
  | .mssql, true => "1"
  | .mssql, false => "0"
  | _, true => "true"
  | _, false => "false"

def supportsReturning : Dialect → Bool
  | .postgres => true
  | .sqlite => true
  | _ => false

def pagination : Dialect → Pagination
  | .mssql => .topOrFetch
  | .oracle => .fetchNext
  | _ => .limitOffset

/-- Text between single quotes where a backslash escapes the next character. -/
def escapedText (s : String) : String :=
  Text.enclosed '\'' '\'' (Text.doubled '\\' s.toList)

/-- The literal of a value. -/
def literal (d : Dialect) (v : Value) : String :=
  match v, d with
  | .bool b, _ => d.boolLiteral b
  | .string s, .mysql => escapedText s
  | .json j, .mysql => escapedText j.compact
  | v, _ => v.text

/-- Dialects whose databases can be reached. -/
def hasDriver : Dialect → Bool
  | .postgres => true
  | .mysql => true
  | .sqlite => true
  | _ => false

/-- The dialect of a name.  Letter case and blanks at the ends do not count. -/
def read (input : String) : Except Error Dialect :=
  match Text.lowercase (Text.trim input) with
  | "postgres" => .ok .postgres
  | "postgresql" => .ok .postgres
  | "pg" => .ok .postgres
  | "mysql" => .ok .mysql
  | "mariadb" => .ok .mysql
  | "sqlite" => .ok .sqlite
  | "mssql" => .ok .mssql
  | "sqlserver" => .ok .mssql
  | "oracle" => .ok .oracle
  | other => .error (.config (.unknownDialect other))

/-- The dialect of the scheme of a database URL. -/
def ofUrl (url : String) : Except Error Dialect :=
  match Text.lowercase (.ofList (url.toList.takeWhile (· != ':'))) with
  | "postgres" => .ok .postgres
  | "postgresql" => .ok .postgres
  | "mysql" => .ok .mysql
  | "mariadb" => .ok .mysql
  | "sqlite" => .ok .sqlite
  | "mssql" => .ok .mssql
  | "sqlserver" => .ok .mssql
  | "oracle" => .ok .oracle
  | other => .error (.config (.unknownScheme other))

end Dialect

end SqlTree
