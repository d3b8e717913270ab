import SqlTree.Error

/-!
# Migration plans

Migrations are executed in the order of their names, so the executed ones are the first ones.  A
plan says which to execute next, or to revert, to reach a target.
-/

namespace SqlTree.Migrate

inductive Direction where
  | up
  | down
  deriving DecidableEq, Repr

def Direction.name : Direction → String
  | .up => "up"
  | .down => "down"

/-- Where to leave the database. -/
inductive Target where
  | latest
  | up
  | down
  /-- The named migration is to be the last one executed. -/
  | named (name : String)
  deriving DecidableEq, Repr

/-- Migrations in the order in which to execute or revert them. -/
structure Plan where
  direction : Direction
  names : List String
  deriving DecidableEq, Repr

/-- Refuses an executed migration that does not stand at its place among the known ones. -/
def checkFrom (names : List String) (position : Nat) : List String → Except Error Unit
  | [] => .ok ()
  | n :: executed =>
    if !names.contains n then .error (.migration (.missing n))
    else if names[position]? ≠ some n then .error (.migration (.misplaced n position))
    else checkFrom names (position + 1) executed

/-- Executed migrations have to be the first ones of all. -/
def checkHistory (names executed : List String) : Except Error Unit := checkFrom names 0 executed

namespace Plan

variable (names : List String) (executed : Nat)

/-- Executes what is missing among the first `count` migrations. -/
def upTo (count : Nat) : Plan := ⟨.up, (names.take count).drop executed⟩

/-- Reverts, last one first, what was executed behind the first `count` migrations. -/
def downTo (count : Nat) : Plan := ⟨.down, ((names.take executed).drop count).reverse⟩

/-- The plan for a target when the first `executed` migrations were executed. -/
def of : Target → Except Error Plan
  | .latest => .ok (upTo names executed names.length)
  | .up => .ok (upTo names executed (executed + 1))
  | .down => .ok (downTo names executed (executed - 1))
  | .named n =>
    match names.findIdx? (· == n) with
    | none => .error (.migration (.unknown n))
    | some i => .ok (if i < executed then downTo names executed (i + 1)
        else upTo names executed (i + 1))

end Plan

end SqlTree.Migrate
