import Rulebook.Entries
import Rulebook.Value

/-!
# Contexts

A context gives values to the names of attributes: one value to each name, in the order in which the
names first came. `insert` replaces the value of a name that is there. As a function of names
(`get?`) a context is changed by `insert` at one name and nowhere else.
-/

namespace Rulebook

/-- The values of the attributes known to an evaluation. -/
structure Context where
  /-- Names with their values. -/
  entries : List (String × Value)
  /-- Each name has one value. -/
  nodup : (Entries.names entries).Nodup
  deriving DecidableEq, Repr

namespace Context

/-- The context without attributes. -/
def empty : Context := ⟨[], List.nodup_nil⟩

/-- Gives a value to a name. -/
def insert (c : Context) (name : String) (v : Value) : Context :=
  ⟨Entries.set name v c.entries, Entries.nodup_names_set c.nodup⟩

/-- The context of a list of pairs; of several pairs with one name the last counts. -/
def ofList (pairs : List (String × Value)) : Context :=
  pairs.foldl (fun c p => c.insert p.1 p.2) empty

/-- The value of a name. -/
def get? (c : Context) (name : String) : Option Value :=
  Entries.find? name c.entries

/-- The name has a value. -/
def contains (c : Context) (name : String) : Bool :=
  (c.get? name).isSome

/-- The number of names. -/
def size (c : Context) : Nat :=
  c.entries.length

/-! ### The view as a function of names -/

@[simp]
theorem get?_empty (name : String) : empty.get? name = none := rfl

/-- Giving a value to a name changes the value of that name and of no other. -/
@[simp]
theorem get?_insert (c : Context) (name other : String) (v : Value) :
    (c.insert name v).get? other = if name = other then some v else c.get? other :=
  Entries.find?_set name other v c.entries

end Context

end Rulebook
