/-!
# Named constants

Types with finitely many values, each with a name that is kept in stored trees.
-/

namespace SqlTree

/-- All values of a type and their names. -/
class Named (α : Type) where
  all : List α
  name : α → String

/-- The value of that name, if there is one. -/
def Named.ofName? {α : Type} [Named α] (s : String) : Option α :=
  (Named.all : List α).find? (Named.name · == s)

end SqlTree
