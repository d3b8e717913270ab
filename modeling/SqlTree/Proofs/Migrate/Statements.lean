import SqlTree.Migrate.Lock
import SqlTree.Migrate.Plan
import SqlTree.Proofs.Render.Shared
import Mathlib.Data.String.Basic

/-!
# The statements of a migrator

Every dialect can write them, and only by their quoting and their placeholders do the bookings of
two dialects differ (`Migrate.compile_record`, `Migrate.compile_unrecord`).
-/

namespace SqlTree

namespace Migrate

section Trees

variable (name time : String)

def recordNode : Node :=
  ⟨.insertQuery {
    into := some (.table none table), columns := [.column "name", .column "timestamp"],
    values := some ⟨.values [⟨.valueList (.primitive [.string name, .string time])⟩]⟩ }⟩

def unrecordNode : Node :=
  ⟨.deleteQuery {
    fromClause := ⟨.fromClause [.table none table]⟩
    whereClause := some ⟨.whereClause
      (.binary (.column "name") .eq ⟨.value (.string name) false⟩)⟩ }⟩

theorem tableParts_table : Read.tableParts table = .ok (none, table) := by decide +kernel

theorem record_eq : record name time = .ok (recordNode name time) := by
  rw [record, Start.insertInto, Read.table, tableParts_table]
  rfl

theorem tableExpression_table : Read.tableExpression table = .ok (.table none table) := by
  have hsplit : Read.splitAlias table = .ok (table, none) := by decide +kernel
  simp only [Read.tableExpression, hsplit, Read.table, tableParts_table, bind, Except.bind, pure,
    Except.pure, Read.withAlias]

theorem compare_name : Term.compare (.text "name") "=" (text name) =
    .ok (.binary (.column "name") .eq ⟨.value (.string name) false⟩) := by
  have hparts : Read.parts? (Text.trimChars "name".toList) = some ["name"] := by decide +kernel
  have hsome : (Text.trimChars "name".toList).isEmpty = false := by decide +kernel
  have hall : ("name" = "*") = False := by decide +kernel
  have hop : Operator.readBinary "=" = .ok .eq := by decide +kernel
  simp only [Term.compare, Term.reference, Read.reference, hparts, hsome, Read.columnOrAll,
    hall, Node.compare, hop, bind, Except.bind, pure, Except.pure, Bool.false_eq_true, if_false]
  rfl

theorem unrecord_eq : unrecord name = .ok (unrecordNode name) := by
  simp only [unrecord, Start.deleteFrom, List.mapM_cons, List.mapM_nil, Term.table,
    tableExpression_table, Filtered.whereCompare, compare_name, bind, Except.bind, pure,
    Except.pure]
  rfl

def recordPieces : List Piece :=
  [.text "insert", .text " into ", .name table, .text " ", .text "(", .name "name", .text ", ",
    .name "timestamp", .text ")", .text " ", .text "values ", .text "(", .parameter (.string name),
    .text ", ", .parameter (.string time), .text ")"]

def unrecordPieces : List Piece :=
  [.text "delete", .text " ", .text "from ", .name table, .text " ", .text "where ", .name "name",
    .text " ", .text "=", .text " ", .parameter (.string name)]

end Trees

/-- The texts of bookings; names and times are parameters. -/
def bookingText (d : Dialect) : Direction → String
  | .up => Piece.sql d (recordPieces "" "")
  | .down => Piece.sql d (unrecordPieces "")

def readingText (d : Dialect) : String :=
  .join ["select ", d.quote "name", ", ", d.quote "timestamp", " from ", d.quote table,
    " order by ", d.quote "name"]

section Compiled

variable (d : Dialect) (name time : String)

theorem compile_record : (record name time).bind (Node.compile d) =
    .ok ⟨recordNode name time, bookingText d .up, [.string name, .string time]⟩ := by
  rw [record_eq]
  exact Node.compile_of_pieces d (recordPieces name time) rfl (of_decide_eq_true rfl) rfl

theorem compile_unrecord : (unrecord name).bind (Node.compile d) =
    .ok ⟨unrecordNode name, bookingText d .down, [.string name]⟩ := by
  rw [unrecord_eq]
  exact Node.compile_of_pieces d (unrecordPieces name) rfl (of_decide_eq_true rfl) rfl

end Compiled

theorem exists_of_isOk {α : Type} {r : Except Error α} (h : r.isOk = true) : ∃ a, r = .ok a := by
  cases r with
  | ok a => exact ⟨a, rfl⟩
  | error e => cases h

/-- What reads the history, and what is about the tables, can be written in every dialect. -/
theorem exists_compiled (d : Dialect) {n : Except Error Node}
    (h : n ∈ [selectExecuted, createTable, createLockTable, selectLockRow, insertLockRow]) :
    ∃ q, n.bind (Node.compile d) = .ok q := by
  apply exists_of_isOk
  obtain rfl | rfl | rfl | rfl | rfl : n = selectExecuted ∨ n = createTable ∨
      n = createLockTable ∨ n = selectLockRow ∨ n = insertLockRow := by simpa using h
  all_goals cases d <;> decide +kernel

end Migrate

end SqlTree
