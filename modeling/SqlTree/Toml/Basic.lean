/-!
# TOML documents

Settings as they are written in TOML files, and the rules by which keys and headers build tables.
There are no floating-point numbers and no dates, which no setting needs.
-/

namespace SqlTree

namespace Toml

/-- How a table came about, which decides what may be added to it. -/
inductive Origin where
  /-- It has a header of its own. -/
  | header
  /-- It stands only in the headers of tables inside it. -/
  | implied
  /-- It stands in front of a dot in a key. -/
  | dotted
  /-- It was written in braces; nothing may be added. -/
  | inline
  deriving DecidableEq, Repr

end Toml

inductive Toml where
  | string (s : String)
  | int (n : Int)
  | bool (b : Bool)
  | array (items : List Toml)
  | table (origin : Toml.Origin) (members : List (String × Toml))
  /-- Tables that share a header in double brackets. -/
  | tables (items : List (List (String × Toml)))
  deriving Inhabited, Repr

namespace Toml

abbrev Members := List (String × Toml)

/-- Changes the member with a key, which may be missing before. -/
def alter (key : String) (f : Option Toml → Option Toml) : Members → Option Members
  | [] => (f none).map fun v => [(key, v)]
  | (k, v) :: ms =>
    if k = key then (f (some v)).map fun w => (k, w) :: ms
    else (alter key f ms).map ((k, v) :: ·)

/-- Changes the last one of some tables. -/
def onLast (f : Members → Option Members) : List Members → Option (List Members)
  | [] => none
  | [ms] => (f ms).map fun ns => [ns]
  | ms :: rest => (onLast f rest).map (ms :: ·)

/-- Whether the next part of a dotted key may go into a table; into a table that is only implied may
go nothing but more tables. -/
def Origin.admits (last : Bool) : Origin → Bool
  | .dotted => true
  | .implied => !last
  | .header => false
  | .inline => false

/-- Adds a value under a key with dots. -/
def put (v : Toml) : List String → Members → Option Members
  | [], _ => none
  | [key], ms => alter key (fun
    | none => some v
    | some _ => none) ms
  | key :: keys, ms => alter key (fun
    | none => (put v keys []).map (.table .dotted)
    | some (.table o inner) =>
      if o.admits (keys.length == 1) then (put v keys inner).map (.table o) else none
    | some (.tables ts) => if keys.length == 1 then none else (onLast (put v keys) ts).map .tables
    | some _ => none) ms

/-- Changes what a header stands for, along with the tables it implies. -/
def underHeader (f : Option Toml → Option Toml) : List String → Members → Option Members
  | [], _ => none
  | [key], ms => alter key f ms
  | key :: keys, ms => alter key (fun
    | none => (underHeader f keys []).map (.table .implied)
    | some (.table o inner) =>
      if o = .inline then none else (underHeader f keys inner).map (.table o)
    | some (.tables ts) => (onLast (underHeader f keys) ts).map .tables
    | some _ => none) ms

/-- Opens a table by its header, which it has not had before. -/
def openTable : List String → Members → Option Members :=
  underHeader fun
    | none => some (.table .header [])
    | some (.table .implied inner) => some (.table .header inner)
    | some _ => none

/-- Opens one more table by a header in double brackets. -/
def openItem : List String → Members → Option Members :=
  underHeader fun
    | none => some (.tables [[]])
    | some (.tables ts) => some (.tables (ts ++ [[]]))
    | some _ => none

/-- Changes the table that was opened under a header. -/
def within (f : Members → Option Members) : List String → Members → Option Members
  | [], ms => f ms
  | key :: keys, ms => alter key (fun
    | some (.table o inner) => (within f keys inner).map (.table o)
    | some (.tables ts) => (onLast (within f keys) ts).map .tables
    | _ => none) ms

end Toml

end SqlTree
