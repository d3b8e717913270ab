/-!
# JSON documents

Documents as a tree.  Integers and floating-point numbers are kept apart, and an object is the list
of its members; `sorted` brings the members of every object into the order of their keys.  What
documents stand for is an `Algebra`; `fold` applies it to a whole document.
-/

namespace SqlTree

/-- A JSON document.  Readers make an `int` of numbers between `-2 ^ 63` and `2 ^ 64 - 1` only. -/
inductive Json where
  | null
  | bool (b : Bool)
  | int (n : Int)
  | float (x : Float)
  | string (s : String)
  | array (items : List Json)
  | object (members : List (String × Json))
  deriving Inhabited, Repr

namespace Json

mutual

/-- Equality of documents, with floating-point numbers compared as numbers. -/
def beq : Json → Json → Bool
  | .null, .null => true
  | .bool a, .bool b => a == b
  | .int a, .int b => a == b
  | .float a, .float b => a == b
  | .string a, .string b => a == b
  | .array as, .array bs => beqItems as bs
  | .object as, .object bs => beqMembers as bs
  | _, _ => false

def beqItems : List Json → List Json → Bool
  | [], [] => true
  | a :: as, b :: bs => a.beq b && beqItems as bs
  | _, _ => false

def beqMembers : List (String × Json) → List (String × Json) → Bool
  | [], [] => true
  | (k, a) :: as, (l, b) :: bs => k == l && a.beq b && beqMembers as bs
  | _, _ => false

end

instance : BEq Json := ⟨beq⟩

/-- Puts a member in its place among sorted members; a later value for a key replaces the earlier
one. -/
def insertMember (k : String) (v : Json) : List (String × Json) → List (String × Json)
  | [] => [(k, v)]
  | (l, w) :: rest =>
    if k == l then (k, v) :: rest
    else if k < l then (k, v) :: (l, w) :: rest
    else (l, w) :: insertMember k v rest

/-- Members in the order of their keys, the last one of each key. -/
def sortMembers (members : List (String × Json)) : List (String × Json) :=
  members.foldl (fun acc m => insertMember m.1 m.2 acc) []

/-- An object from members in any order. -/
def ofMembers (members : List (String × Json)) : Json := .object (sortMembers members)

mutual

/-- Every object with its members in the order of their keys, the last one of each key. -/
def sorted : Json → Json
  | .array items => .array (sortedItems items)
  | .object members => .ofMembers (sortedMembers members)
  | j => j

def sortedItems : List Json → List Json
  | [] => []
  | j :: js => j.sorted :: sortedItems js

def sortedMembers : List (String × Json) → List (String × Json)
  | [] => []
  | (k, j) :: ms => (k, j.sorted) :: sortedMembers ms

end

/-- How a meaning of documents is made up, from their parts up. -/
structure Algebra (α : Type) where
  /-- A document without parts. -/
  leaf : Json → α
  array : List α → α
  object : List (String × α) → α
  /-- Text that was passed over, as it may stand for no document. -/
  skipped : α

section Fold

variable {α : Type} (alg : Algebra α)

mutual

/-- What a document stands for. -/
def fold : Json → α
  | .array items => alg.array (foldItems items)
  | .object members => alg.object (foldMembers members)
  | j => alg.leaf j

def foldItems : List Json → List α
  | [] => []
  | j :: js => j.fold :: foldItems js

def foldMembers : List (String × Json) → List (String × α)
  | [] => []
  | (k, j) :: ms => (k, j.fold) :: foldMembers ms

end

end Fold

/-- The member of an object, if there is one. -/
def get? (key : String) : Json → Option Json
  | .object members => members.lookup key
  | _ => none

end Json

end SqlTree
