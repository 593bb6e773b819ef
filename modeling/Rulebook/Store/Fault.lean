/-!
# What can go wrong with a store

A store that is kept elsewhere may fail. Whoever asked is never told why; the reason goes into the
journal.
-/

namespace Rulebook

/-- Why a store could not do what it was asked to do. -/
inductive StorageFault where
  /-- The connection pool is closed. -/
  | poolClosed
  /-- No connection became free in time. -/
  | timedOut
  /-- The URL of the database is unusable. -/
  | configuration (reason : String)
  deriving DecidableEq, Repr

/-- The reason as the journal has it. -/
def StorageFault.text : StorageFault → String
  | .poolClosed => "attempted to acquire a connection on a closed pool"
  | .timedOut => "pool timed out while waiting for an open connection"
  | .configuration reason => "error with configuration: " ++ reason

end Rulebook
