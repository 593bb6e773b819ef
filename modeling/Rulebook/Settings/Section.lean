import Rulebook.Settings.Setting

/-!
# Sections

A section of the settings is a record. It is read from a table, whose other names do not matter, or
from a list of its fields in order. What is not there keeps its default.
-/

namespace Rulebook.Setting

/-- A field of a section that is read into `σ`. -/
structure Field (σ : Type) where
  name : String
  /-- Takes a setting into the record, if it can stand for the field. -/
  read : σ → Setting → Option σ

/-- Reads a section over its defaults. -/
def toSection? {σ : Type} (fields : List (Field σ)) (defaults : σ) : Setting → Option σ
  | .table es =>
    fields.foldlM (fun s f => match Entries.find? f.name es with
      | some v => f.read s v
      | none => some s) defaults
  | .list vs => (fields.zip vs).foldlM (fun s p => p.1.read s p.2) defaults
  | _ => none

end Rulebook.Setting
