import Rulebook.Store.Backend

/-!
# A closed pool

A store in a database is reached through a pool of connections. Once the pool is closed no
connection can be had, so every operation fails, and so does preparing the database.
-/

namespace Rulebook

/-- A pool of connections that has been closed. -/
structure ClosedPool where
  deriving DecidableEq, Repr

namespace ClosedPool

/-- The event of closing a pool. -/
def closing : List Journal.Event := [.poolClosed]

/-- Prepares the tables of the database. -/
def prepare (_ : ClosedPool) : Except StorageFault Unit := .error .poolClosed

/-- The pool as a backend. -/
def backend : Backend ClosedPool :=
  ⟨fun _ _ pool => ⟨pool, .error .poolClosed, []⟩⟩

end ClosedPool

end Rulebook
