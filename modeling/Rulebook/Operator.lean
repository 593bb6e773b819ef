/-!
# Operators

The six binary operators of rules. Two connectives join truth values, four comparisons relate
numbers or strings. `symbol` writes an operator and `ofSymbol?` reads exactly what `symbol` writes;
case matters.
-/

namespace Rulebook

/-- The two ways of joining rules. -/
inductive Connective where
  | and
  | or
  deriving DecidableEq, Repr, Inhabited

/-- The four ways of relating two values. -/
inductive Comparison where
  | greater
  | less
  | equal
  | unequal
  deriving DecidableEq, Repr

/-- An operator is a connective or a comparison. -/
inductive Operator where
  | logical (connective : Connective)
  | relating (comparison : Comparison)
  deriving DecidableEq, Repr

/-- How a connective is written. -/
def Connective.symbol : Connective → String
  | .and => "AND"
  | .or => "OR"

/-- How a comparison is written. -/
def Comparison.symbol : Comparison → String
  | .greater => ">"
  | .less => "<"
  | .equal => "="
  | .unequal => "!="

namespace Operator

/-- How an operator is written. -/
def symbol : Operator → String
  | .logical c => c.symbol
  | .relating c => c.symbol

/-- The operator that a symbol stands for. -/
def ofSymbol? : String → Option Operator
  | "AND" => some (.logical .and)
  | "OR" => some (.logical .or)
  | ">" => some (.relating .greater)
  | "<" => some (.relating .less)
  | "=" => some (.relating .equal)
  | "!=" => some (.relating .unequal)
  | _ => none

/-- The operator joins truth values. -/
def isLogical : Operator → Bool
  | .logical _ => true
  | .relating _ => false

@[simp]
theorem ofSymbol?_symbol (op : Operator) : ofSymbol? op.symbol = some op := by
  cases op with
  | logical c => cases c <;> rfl
  | relating c => cases c <;> rfl

theorem symbol_of_ofSymbol? {s : String} {op : Operator} (h : ofSymbol? s = some op) :
    op.symbol = s := by
  unfold ofSymbol? at h
  split at h <;> simp_all [symbol, Connective.symbol, Comparison.symbol] <;> subst h <;> rfl

/-- Reading a symbol succeeds exactly on what `symbol` writes. -/
theorem ofSymbol?_eq_some_iff {s : String} {op : Operator} :
    ofSymbol? s = some op ↔ s = op.symbol :=
  ⟨fun h => (symbol_of_ofSymbol? h).symm, fun h => h ▸ ofSymbol?_symbol op⟩

end Operator

end Rulebook
