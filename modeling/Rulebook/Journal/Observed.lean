import Rulebook.Journal.Event
import Rulebook.Combination

/-!
# What is observed of reading and combining rules

Reading and combining are pure functions; the events that they leave in the journal are functions of
the same arguments. A rule leaves an event only if it can be read, and a combination leaves the
events of its rules up to the one that stops it.
-/

namespace Rulebook.Journal

/-- The events of reading a list of words. -/
def ofBuild (words : List String) : List Event :=
  match Parser.build words with
  | .ok _ => [.ruleRead words.length]
  | .error _ => []

/-- The events of reading a text. -/
def ofParse (rule : String) : List Event :=
  ofBuild (Token.words rule)

/-- The events of joining further rules, `count` being the number of all rules. -/
def ofJoining (connective : Connective) (count : Nat) (joined : Tree × Nat) :
    List String → List Event
  | [] => [.rulesCombined count connective]
  | rule :: rules =>
    ofParse rule ++
      -- the rule may have been read although it makes the combination too large
      match Combination.join connective joined rule with
      | .ok joined => ofJoining connective count joined rules
      | .error _ => []

/-- The events of combining rules. -/
def ofCombine (connective : Connective) : List String → List Event
  | [] => []
  | rule :: rules =>
    ofParse rule ++
      match Parser.parse rule with
      | .ok tree => ofJoining connective (rules.length + 1) (tree, tree.operatorCount) rules
      | .error _ => []

end Rulebook.Journal
