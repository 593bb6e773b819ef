import Rulebook.Parser
import Rulebook.RuleError

/-!
# Combining rules

Several rules are joined into one by a connective, from left to right: the tree of `a`, `b`, `c`
under `AND` is that of `(a AND b) AND c`. The rules are read one after another, each only if those
before it could be read and joined; together they may have no more operators than one rule may.
-/

namespace Rulebook.Combination

/-- Reads one of the rules to combine. -/
def readRule (rule : String) : Except RuleError Tree :=
  (Parser.parse rule).mapError (.invalidRule rule)

/-- Joins one more rule to what has been joined, `operators` being the number of operators so
far. -/
def join (connective : Connective) (joined : Tree × Nat) (rule : String) :
    Except RuleError (Tree × Nat) := do
  let tree ← readRule rule
  let operators := joined.2 + tree.operatorCount + 1
  if operators > maxOperators then throw (.parse .tooComplex)
  else return (.node (.logical connective) joined.1 tree, operators)

/-- Joins rules by a connective. -/
def combine (connective : Connective) : List String → Except RuleError Tree
  | [] => .error .noRules
  | rule :: rules => do
    let first ← readRule rule
    let joined ← rules.foldlM (join connective) (first, first.operatorCount)
    return joined.1

end Rulebook.Combination
