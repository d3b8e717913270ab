import SqlTree.Proofs.Migrate.Batch
import SqlTree.Proofs.Migrate.Statements

/-!
# Registers of statements

How a database takes the statements it is sent.  In every dialect those of a migrator can be told
from each other (`Register.plain`).
-/

namespace SqlTree

open Migrate

/-- What a statement of a migrator is to the database. -/
inductive Entry where
  | read
  | booked (direction : Direction) (name : String)
  | lock
  | unlock
  deriving DecidableEq

/-- How a database takes statements, by their texts and parameters: those that a party sends to read
the history, to book migrations and to lock, for what they are. -/
structure Register (u : Party) where
  kind? : String → List Value → Option Entry
  read {q : Compiled} : selectExecuted.bind u.compile = .ok q →
    kind? q.sql q.parameters = some .read
  books {direction : Direction} {name : String} {n : Except Error Node} {q : Compiled} :
    Books name direction n → n.bind u.compile = .ok q →
      kind? q.sql q.parameters = some (.booked direction name)
  tables {n : Except Error Node} {q : Compiled} :
    n ∈ [createTable, createLockTable, selectLockRow, insertLockRow] → n.bind u.compile = .ok q →
      kind? q.sql q.parameters = none
  lock {sql : String} : u.dialect.lockStatement? = some sql → kind? sql [] = some .lock
  unlock {sql : String} : u.dialect.unlockStatement? = some sql → kind? sql [] = some .unlock

/-- What a statement is by its text and its parameters. -/
def Dialect.kind? (d : Dialect) (sql : String) : List Value → Option Entry
  | [] =>
    if sql = readingText d then some .read
    else if d.lockStatement? = some sql then some .lock
    else if d.unlockStatement? = some sql then some .unlock
    else none
  | [.string name] => if sql = bookingText d .down then some (.booked .down name) else none
  | [.string name, .string _] =>
    if sql = bookingText d .up then some (.booked .up name) else none
  | _ => none

theorem Party.compile_plain (d : Dialect) : ({ dialect := d } : Party).compile = Node.compile d :=
  rfl

/-- What holds of all that came out. -/
theorem of_all {α : Type} {r : Except Error α} {p : α → Prop} [DecidablePred p] {a : α}
    (h : r.toOption.all (fun a => decide (p a)) = true) (ha : r = .ok a) : p a := by
  subst ha
  exact of_decide_eq_true h

namespace Dialect

variable (d : Dialect)

/-- The texts of all statements without parameters differ. -/
theorem kind?_lockStatement {sql : String} (h : d.lockStatement? = some sql) :
    d.kind? sql [] = some .lock := by
  have hall : d.lockStatement?.all fun sql => decide (d.kind? sql [] = some .lock) := by
    cases d <;> decide +kernel
  rw [h] at hall
  exact of_decide_eq_true hall

theorem kind?_unlockStatement {sql : String} (h : d.unlockStatement? = some sql) :
    d.kind? sql [] = some .unlock := by
  have hall : d.unlockStatement?.all fun sql => decide (d.kind? sql [] = some .unlock) := by
    cases d <;> decide +kernel
  rw [h] at hall
  exact of_decide_eq_true hall

variable {q : Compiled}

theorem kind?_read (h : selectExecuted.bind (Node.compile d) = .ok q) :
    d.kind? q.sql q.parameters = some .read := by
  refine of_all (p := fun q : Compiled => d.kind? q.sql q.parameters = some .read) ?_ h
  cases d <;> decide +kernel

theorem kind?_tables {n : Except Error Node}
    (hn : n ∈ [createTable, createLockTable, selectLockRow, insertLockRow])
    (h : n.bind (Node.compile d) = .ok q) : d.kind? q.sql q.parameters = none := by
  refine of_all (p := fun q : Compiled => d.kind? q.sql q.parameters = none) ?_ h
  obtain rfl | rfl | rfl | rfl : n = createTable ∨ n = createLockTable ∨ n = selectLockRow ∨
      n = insertLockRow := by simpa using hn
  all_goals cases d <;> decide +kernel

theorem kind?_books {direction : Direction} {name : String} {n : Except Error Node}
    (hbooks : Books name direction n) (h : n.bind (Node.compile d) = .ok q) :
    d.kind? q.sql q.parameters = some (.booked direction name) := by
  cases hbooks with
  | record time =>
    rw [compile_record] at h
    obtain rfl := Except.ok.inj h
    rw [kind?, if_pos rfl]
  | unrecord =>
    rw [compile_unrecord] at h
    obtain rfl := Except.ok.inj h
    rw [kind?, if_pos rfl]

end Dialect

/-- Without plugins, the statements of a migrator are what they are by their texts and parameters,
in every dialect. -/
def Register.plain (d : Dialect) : Register { dialect := d } where
  kind? := d.kind?
  read h := d.kind?_read (by rwa [Party.compile_plain] at h)
  books hbooks h := d.kind?_books hbooks (by rwa [Party.compile_plain] at h)
  tables hn h := d.kind?_tables hn (by rwa [Party.compile_plain] at h)
  lock := d.kind?_lockStatement
  unlock := d.kind?_unlockStatement

/-- A statement about another table is none of a migrator. -/
theorem Register.exists_plain_eq_none :
    ∃ q, Node.compile .mysql ⟨.raw ["create table t (id int)"] []⟩ = .ok q ∧
      (Register.plain .mysql).kind? q.sql q.parameters = none := by
  obtain ⟨q, hq⟩ := exists_of_isOk
    (r := Node.compile .mysql ⟨.raw ["create table t (id int)"] []⟩) (by decide +kernel)
  refine ⟨q, hq, of_all (p := fun q : Compiled => Dialect.mysql.kind? q.sql q.parameters = none)
    ?_ hq⟩
  decide +kernel

end SqlTree
