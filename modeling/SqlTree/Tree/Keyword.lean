import SqlTree.Text.Lowercase
import SqlTree.Text.Blank
import SqlTree.Error
import SqlTree.Tree.Named

/-!
# Keywords

The fixed choices inside clauses: their names, how they are written and how they are read.
-/

namespace SqlTree

inductive JoinType where
  | inner
  | left
  | right
  | full
  | cross
  | lateralInner
  | lateralLeft
  deriving DecidableEq, Repr, Inhabited

namespace JoinType

def name : JoinType → String
  | .inner => "Inner"
  | .left => "Left"
  | .right => "Right"
  | .full => "Full"
  | .cross => "Cross"
  | .lateralInner => "LateralInner"
  | .lateralLeft => "LateralLeft"

def keyword : JoinType → String
  | .inner => "inner join"
  | .left => "left join"
  | .right => "right join"
  | .full => "full join"
  | .cross => "cross join"
  | .lateralInner => "inner join lateral"
  | .lateralLeft => "left join lateral"

instance : Named JoinType :=
  ⟨[.inner, .left, .right, .full, .cross, .lateralInner, .lateralLeft], name⟩

end JoinType

inductive OrderDirection where
  | asc
  | desc
  deriving DecidableEq, Repr, Inhabited

namespace OrderDirection

def name : OrderDirection → String
  | .asc => "Asc"
  | .desc => "Desc"

def keyword : OrderDirection → String
  | .asc => "asc"
  | .desc => "desc"

instance : Named OrderDirection := ⟨[.asc, .desc], name⟩

/-- Exactly `asc` or `desc`. -/
def read? (input : String) : Option OrderDirection :=
  if input = "asc" then some .asc else if input = "desc" then some .desc else none

end OrderDirection

inductive NullsOrder where
  | first
  | last
  deriving DecidableEq, Repr, Inhabited

namespace NullsOrder

def name : NullsOrder → String
  | .first => "First"
  | .last => "Last"

def keyword : NullsOrder → String
  | .first => "nulls first"
  | .last => "nulls last"

instance : Named NullsOrder := ⟨[.first, .last], name⟩

end NullsOrder

inductive SetOperator where
  | union
  | intersect
  | except
  deriving DecidableEq, Repr, Inhabited

namespace SetOperator

def name : SetOperator → String
  | .union => "Union"
  | .intersect => "Intersect"
  | .except => "Except"

def keyword : SetOperator → String
  | .union => "union"
  | .intersect => "intersect"
  | .except => "except"

instance : Named SetOperator := ⟨[.union, .intersect, .except], name⟩

end SetOperator

inductive SelectModifier where
  | distinct
  | forUpdate
  | forShare
  | forKeyShare
  | forNoKeyUpdate
  | noWait
  | skipLocked
  deriving DecidableEq, Repr, Inhabited

namespace SelectModifier

def name : SelectModifier → String
  | .distinct => "Distinct"
  | .forUpdate => "ForUpdate"
  | .forShare => "ForShare"
  | .forKeyShare => "ForKeyShare"
  | .forNoKeyUpdate => "ForNoKeyUpdate"
  | .noWait => "NoWait"
  | .skipLocked => "SkipLocked"

def keyword : SelectModifier → String
  | .distinct => "distinct"
  | .forUpdate => "for update"
  | .forShare => "for share"
  | .forKeyShare => "for key share"
  | .forNoKeyUpdate => "for no key update"
  | .noWait => "nowait"
  | .skipLocked => "skip locked"

instance : Named SelectModifier :=
  ⟨[.distinct, .forUpdate, .forShare, .forKeyShare, .forNoKeyUpdate, .noWait, .skipLocked], name⟩

/-- Row locks come before what to do with rows that are locked. -/
def priority : SelectModifier → Nat
  | .distinct => 0
  | .forUpdate => 1
  | .forShare => 1
  | .forKeyShare => 1
  | .forNoKeyUpdate => 1
  | .noWait => 2
  | .skipLocked => 2

end SelectModifier

inductive FetchModifier where
  | rowsOnly
  | withTies
  deriving DecidableEq, Repr, Inhabited

namespace FetchModifier

def name : FetchModifier → String
  | .rowsOnly => "Only"
  | .withTies => "WithTies"

def keyword : FetchModifier → String
  | .rowsOnly => "only"
  | .withTies => "with ties"

def all : List FetchModifier := [.rowsOnly, .withTies]

instance : Named FetchModifier := ⟨all, name⟩

def read (input : String) : Except Error FetchModifier :=
  match all.find? (·.keyword == Text.trim input) with
  | some m => .ok m
  | none => .error (.validation (.fetchModifier (Text.trim input)))

end FetchModifier

inductive TopModifier where
  | percent
  | withTies
  | percentWithTies
  deriving DecidableEq, Repr, Inhabited

namespace TopModifier

def name : TopModifier → String
  | .percent => "Percent"
  | .withTies => "WithTies"
  | .percentWithTies => "PercentWithTies"

def keyword : TopModifier → String
  | .percent => "percent"
  | .withTies => "with ties"
  | .percentWithTies => "percent with ties"

def all : List TopModifier := [.percent, .withTies, .percentWithTies]

instance : Named TopModifier := ⟨all, name⟩

def read (input : String) : Except Error TopModifier :=
  match all.find? (·.keyword == Text.trim input) with
  | some m => .ok m
  | none => .error (.validation (.topModifier (Text.trim input)))

end TopModifier

/-- What a foreign key does when the row it points to changes. -/
inductive ReferentialAction where
  | cascade
  | setNull
  | setDefault
  | restrict
  | noAction
  deriving DecidableEq, Repr, Inhabited

namespace ReferentialAction

def name : ReferentialAction → String
  | .cascade => "Cascade"
  | .setNull => "SetNull"
  | .setDefault => "SetDefault"
  | .restrict => "Restrict"
  | .noAction => "NoAction"

def keyword : ReferentialAction → String
  | .cascade => "cascade"
  | .setNull => "set null"
  | .setDefault => "set default"
  | .restrict => "restrict"
  | .noAction => "no action"

def all : List ReferentialAction := [.cascade, .setNull, .setDefault, .restrict, .noAction]

instance : Named ReferentialAction := ⟨all, name⟩

/-- Letter case and blanks at the ends do not count. -/
def read (input : String) : Except Error ReferentialAction :=
  match all.find? (·.keyword == Text.lowercase (Text.trim input)) with
  | some a => .ok a
  | none => .error (.validation (.referentialAction input))

end ReferentialAction

/-- What happens to the rows of a temporary table at the end of a transaction. -/
inductive OnCommitAction where
  | preserveRows
  | deleteRows
  | drop
  deriving DecidableEq, Repr, Inhabited

namespace OnCommitAction

def name : OnCommitAction → String
  | .preserveRows => "PreserveRows"
  | .deleteRows => "DeleteRows"
  | .drop => "Drop"

def keyword : OnCommitAction → String
  | .preserveRows => "preserve rows"
  | .deleteRows => "delete rows"
  | .drop => "drop"

def all : List OnCommitAction := [.preserveRows, .deleteRows, .drop]

instance : Named OnCommitAction := ⟨all, name⟩

/-- Letter case and blanks at the ends do not count. -/
def read (input : String) : Except Error OnCommitAction :=
  match all.find? (·.keyword == Text.lowercase (Text.trim input)) with
  | some a => .ok a
  | none => .error (.validation (.onCommitAction input))

end OnCommitAction

end SqlTree
