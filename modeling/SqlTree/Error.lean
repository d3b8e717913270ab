import SqlTree.Tree.Kind

/-!
# Errors

What can go wrong, by cause, and how it is reported.
-/

namespace SqlTree

/-- Why a name, reference or table expression was refused. -/
inductive ReferenceFault where
  | emptyIdentifier
  | emptyReference
  | tooManyParts
  | emptyAliasSide
  | secondAlias
  | emptyTable
  | tooManyTableParts
  | openColumnList
  | emptyColumn
  | badTableName
  | notBareColumn
  | noTablePart
  deriving DecidableEq, Repr

def ReferenceFault.text : ReferenceFault → String
  | .emptyIdentifier => "empty identifier"
  | .emptyReference => "empty reference"
  | .tooManyParts => "expected column, table.column or schema.table.column"
  | .emptyAliasSide => "empty side of an alias"
  | .secondAlias => "more than one alias"
  | .emptyTable => "empty table name"
  | .tooManyTableParts => "expected table or schema.table"
  | .openColumnList => "unterminated column list"
  | .emptyColumn => "empty column name"
  | .badTableName => "invalid common table expression name"
  | .notBareColumn => "expected a bare column name"
  | .noTablePart => "expected <table>.<column>"

/-- Why a part of a statement was refused. -/
inductive Invalid where
  | fetchModifier (input : String)
  | topModifier (input : String)
  | referentialAction (input : String)
  | onCommitAction (input : String)
  | indexMethod (input : String)
  | rawParameters (sql : String) (places given : Nat)
  | noReferences (column : String)
  | insertRow (text : String)
  | noInsertRows
  | updateValues (text : String)
  | noMergeSource
  | noMergeValues
  | message (text : String)
  deriving DecidableEq, Repr

def Invalid.text : Invalid → String
  | .fetchModifier s => "invalid fetch modifier '" ++ s ++ "'. Expected: only or with ties"
  | .topModifier s =>
    "invalid top modifier '" ++ s ++ "'. Expected: percent, with ties or percent with ties"
  | .referentialAction s => "invalid referential action '" ++ s ++ "'"
  | .onCommitAction s => "invalid on commit action '" ++ s ++ "'"
  | .indexMethod s => "invalid index method '" ++ s ++ "'"
  | .rawParameters s places given =>
    "raw sql '" ++ s ++ "' has " ++ toString places ++ " placeholders but " ++ toString given ++
      " parameters were given"
  | .noReferences s => "column '" ++ s ++ "' has no references clause"
  | .insertRow s => "insert rows must serialize to objects, got " ++ s
  | .noInsertRows => "insert needs at least one row of values"
  | .updateValues s => "update values must serialize to an object, got " ++ s
  | .noMergeSource => "merge needs a using clause"
  | .noMergeValues => "merge insert needs at least one value"
  | .message s => s

/-- What a dialect cannot express. -/
inductive Feature where
  | returning
  | insertIgnore
  deriving DecidableEq, Repr

def Feature.text : Feature → String
  | .returning => "returning"
  | .insertIgnore => "insert ignore"

/-- Why no connection could be used. -/
inductive ConnectionFault where
  | noDriver
  | released
  | message (text : String)
  deriving DecidableEq, Repr

def ConnectionFault.text : ConnectionFault → String
  | .noDriver => "no driver configured, this instance can only compile queries"
  | .released => "connection already released"
  | .message s => s

/-- Why a transaction could not be used. -/
inductive TransactionFault where
  | nested
  | finished
  | closed
  | message (text : String)
  deriving DecidableEq, Repr

def TransactionFault.text : TransactionFault → String
  | .nested => "nested transactions are not supported, use savepoints"
  | .finished => "the transaction or connection has already been finished"
  | .closed => "the transaction has already been committed or rolled back"
  | .message s => s

/-- Why a configuration was refused. -/
inductive ConfigFault where
  | unknownDialect (name : String)
  | unknownScheme (scheme : String)
  | noDatabaseUrl
  | otherDialect (dialect : String)
  | noBundledDriver (dialect : String)
  | unreadable
  | file (path : String) (cause : ConfigFault)
  deriving DecidableEq, Repr

def ConfigFault.text : ConfigFault → String
  | .unknownDialect s => "unknown dialect '" ++ s ++ "'"
  | .unknownScheme s => "cannot infer a dialect from database url scheme '" ++ s ++ "'"
  | .noDatabaseUrl => "no database url configured, set database_url or QUARRY_DATABASE_URL"
  | .otherDialect s => "dialect " ++ s ++ " does not match the database url"
  | .noBundledDriver s => "no bundled driver for the " ++ s ++ " dialect"
  | .unreadable => "no valid configuration"
  | .file path cause => path ++ ": Configuration error: " ++ cause.text

mutual

inductive Error where
  | invalidReference (reference : String) (fault : ReferenceFault)
  | invalidOperator (input : String)
  | invalidOrderDirection (input direction : String)
  | invalidDataType (input : String)
  | validation (cause : Invalid)
  | pluginContract (expected actual : Kind)
  | noResult
  | database (activity cause : String)
  | connection (cause : ConnectionFault)
  | transaction (cause : TransactionFault)
  | rollback (cause second : Error)
  | unsupported (dialect : String) (feature : Feature)
  | migration (cause : MigrationFault)
  | config (cause : ConfigFault)
  | unreadable
  | inaccessible (cause : String)

/-- Why migrations were not run. -/
inductive MigrationFault where
  | lockNotAcquired
  | unknown (name : String)
  | failed (name : String) (cause : Error)
  | missing (name : String)
  | misplaced (name : String) (position : Nat)
  | namelessRow

end

deriving instance DecidableEq for Error

namespace Error

mutual

/-- The message of an error. -/
def message : Error → String
  | .invalidReference s fault => "Invalid reference '" ++ s ++ "': " ++ fault.text
  | .invalidOperator s => "Invalid operator: '" ++ s ++ "'"
  | .invalidOrderDirection s d =>
    "Invalid order by direction '" ++ d ++ "' in '" ++ s ++ "'. Expected: asc or desc"
  | .invalidDataType s => "Invalid data type: '" ++ s ++ "'"
  | .validation cause => "Validation error: " ++ cause.text
  | .pluginContract expected actual =>
    "Plugin contract violation: expected a " ++ expected.name ++ " node, got " ++ actual.name
  | .noResult => "no result"
  | .database activity cause => "Database error while " ++ activity ++ ": " ++ cause
  | .connection cause => "Connection error: " ++ cause.text
  | .transaction cause => "Transaction error: " ++ cause.text
  | .rollback cause second => cause.message ++ " (rollback failed: " ++ second.message ++ ")"
  | .unsupported dialect feature =>
    feature.text ++ " is not supported by the " ++ dialect ++ " dialect"
  | .migration cause => "Migration error: " ++ migrationText cause
  | .config cause => "Configuration error: " ++ cause.text
  | .unreadable => "Serialization error"
  | .inaccessible cause => "IO error: " ++ cause

def migrationText : MigrationFault → String
  | .lockNotAcquired => "could not acquire the migration lock"
  | .unknown name => "unknown migration '" ++ name ++ "'"
  | .failed name cause => "migration '" ++ name ++ "' failed: " ++ cause.message
  | .missing name =>
    "corrupted migrations: previously executed migration '" ++ name ++ "' is missing"
  | .misplaced name position =>
    "corrupted migrations: expected previously executed migration '" ++ name ++ "' at position " ++
      toString position
  | .namelessRow => "quarry_migration row without a name"

end

end Error

end SqlTree
