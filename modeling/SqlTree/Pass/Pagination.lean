import SqlTree.Dialect
import SqlTree.Tree.Walk

/-!
# Pagination

Dialects without `limit` get it as `fetch` or `top`, and dialects without truth values get `is true`
as a comparison with a bit.
-/

namespace SqlTree

namespace Select

/-- The number of rows a limit allows, if nothing else takes its place. -/
def limitRows? (p : Select Node) : Option Node :=
  match p.limit with
  | some ⟨.limit rows⟩ => some rows
  | _ => none

def limitAsFetch (p : Select Node) : Select Node :=
  match p.limitRows?, p.fetch with
  | some rows, none => { p with fetch := some ⟨.fetch rows .rowsOnly⟩, limit := none }
  | _, _ => p

def limitAsTop (p : Select Node) : Select Node :=
  match p.limitRows?, p.top with
  | some rows, none => { p with top := some ⟨.top rows none⟩, limit := none }
  | _, _ => p

/-- An order that leaves the rows in any order, for offsets that need one. -/
def anyOrder : Node :=
  ⟨.orderBy [⟨.orderByItem ⟨.raw ["(select null)"] []⟩ none none⟩]⟩

def ordered (p : Select Node) : Select Node :=
  if p.orderBy.isNone then { p with orderBy := some anyOrder } else p

def paginate (style : Pagination) (p : Select Node) : Select Node :=
  match style with
  | .limitOffset => p
  | .fetchNext => p.limitAsFetch
  | .topOrFetch => if p.offset.isNone then p.limitAsTop else p.limitAsFetch.ordered

end Select

/-- The comparison with a bit that takes the place of a test for truth. -/
def bitOperator? : Operator → Option Operator
  | .is => some .eq
  | .isNot => some .notEqual
  | _ => none

def bitComparison (n : Node) : Node :=
  match n with
  | ⟨.binaryOperation left ⟨.operator op⟩ ⟨.value (.bool b) _⟩⟩ =>
    match bitOperator? op with
    | some op =>
      ⟨.binaryOperation left ⟨.operator op⟩ ⟨.value (.int (if b then 1 else 0)) true⟩⟩
    | none => n
  | _ => n

/-- One node in a style of pagination. -/
def paginateNode (style : Pagination) (bits : Bool) (n : Node) : Node :=
  match n with
  | ⟨.selectQuery p⟩ => ⟨.selectQuery (p.paginate style)⟩
  | ⟨.binaryOperation ..⟩ => if bits then bitComparison n else n
  | _ => n

namespace Dialect

/-- What a dialect does to a tree before it is written. -/
def apply (d : Dialect) (n : Node) : Except Error Node :=
  match d with
  | .mssql => n.transform fun n _ => paginateNode d.pagination true n
  | .oracle => n.transform fun n _ => paginateNode d.pagination false n
  | _ => .ok n

end Dialect

end SqlTree
