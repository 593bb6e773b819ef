import Rulebook.Settings.Setting

/-!
# Tables of TOML

While a document is read, a table remembers how it came about, because that decides what may still
be added to it. A table that a header names may be filled once. A table that only stands on the way
to such a table may still be named, or be taken over by dotted keys. A table that dotted keys have
made or taken over grows by dotted keys, and by headers of tables within it. A table in braces is
complete. An array of tables grows by headers, and what leads through it leads through its last
table.
-/

namespace Rulebook.Toml

/-- How a table came about. -/
inductive Origin where
  /-- It stands on the way to a table that a header names. -/
  | implied
  /-- A header names it. -/
  | named
  /-- Dotted keys have made it, or lead through it. -/
  | dotted
  /-- It was written in braces. -/
  | complete
  deriving DecidableEq, Repr

/-- What a key stands for. -/
inductive Node where
  | value (s : Setting)
  | table (origin : Origin) (entries : List (String × Node))
  /-- An array of tables. -/
  | tables (elements : List (List (String × Node)))

namespace Node

/-- The keys of a table with what they stand for. -/
abbrev Members := List (String × Node)

/-- Changes the last of several tables. -/
def changeLast (f : Members → Option Members) : List Members → Option (List Members)
  | [] => none
  | [es] => (f es).map fun es => [es]
  | es :: ess => (changeLast f ess).map (es :: ·)

/-- Adds a key, which must be new. -/
def addKey (key : String) (n : Node) (es : Members) : Option Members :=
  if (Entries.find? key es).isSome then none else some (es ++ [(key, n)])

/-- Adds a key under dotted keys. Tables on the way that no header names belong to the dotted keys
from then on; a table that a header names, also one of an array, cannot be added to. -/
def addDotted : List String → String → Node → Members → Option Members
  | [], key, n, es => addKey key n es
  | k :: ks, key, n, es =>
    match Entries.find? k es with
    | none => (addDotted ks key n []).map fun sub => es ++ [(k, .table .dotted sub)]
    | some (.table .dotted sub) =>
      (addDotted ks key n sub).map fun sub => Entries.set k (.table .dotted sub) es
    | some (.table .implied sub) =>
      (addDotted ks key n sub).map fun sub => Entries.set k (.table .dotted sub) es
    -- every table of an array is named by its header
    | some (.tables ess) =>
      if ks.isEmpty then none
      else (changeLast (addDotted ks key n) ess).map fun ess => Entries.set k (.tables ess) es
    | some _ => none

/-- Changes the table that the keys of a header lead to. -/
def descend (f : Members → Option Members) : List String → Members → Option Members
  | [], es => f es
  | k :: ks, es =>
    match Entries.find? k es with
    | none => (descend f ks []).map fun sub => es ++ [(k, .table .implied sub)]
    | some (.table .complete _) => none
    | some (.table origin sub) =>
      (descend f ks sub).map fun sub => Entries.set k (.table origin sub) es
    | some (.tables ess) =>
      (changeLast (descend f ks) ess).map fun ess => Entries.set k (.tables ess) es
    | some (.value _) => none

/-- Begins a table that a header names. -/
def beginTable (key : String) (es : Members) : Option Members :=
  match Entries.find? key es with
  | none => some (es ++ [(key, .table .named [])])
  -- a table that was only passed through is now named
  | some (.table .implied sub) => some (Entries.set key (.table .named sub) es)
  | some _ => none

/-- Begins a further table of an array of tables. -/
def beginElement (key : String) (es : Members) : Option Members :=
  match Entries.find? key es with
  | none => some (es ++ [(key, .tables [[]])])
  | some (.tables ess) => some (Entries.set key (.tables (ess ++ [[]])) es)
  | some _ => none

mutual

/-- The setting of a node. -/
def toSetting : Node → Setting
  | .value s => s
  | .table _ es => .table (toEntries es)
  | .tables ess => .list (toItems ess)

/-- The settings of entries. -/
def toEntries : List (String × Node) → List (String × Setting)
  | [] => []
  | (key, n) :: es => (key, n.toSetting) :: toEntries es

/-- The settings of several tables. -/
def toItems : List (List (String × Node)) → List Setting
  | [] => []
  | es :: ess => .table (toEntries es) :: toItems ess

end

end Node

end Rulebook.Toml
