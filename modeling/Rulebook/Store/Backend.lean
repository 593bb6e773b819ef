import Rulebook.Store.Rule
import Rulebook.Journal.Event

/-!
# What a store can be asked

An `Operation` is a question to a store together with the type of its answer. A `Backend` answers
operations, given the time and its own state; it may fail, and it may leave events. The service
knows stores only through these two.
-/

namespace Rulebook

/-- A question to a store, with the type of its answer. -/
inductive Operation : Type → Type where
  /-- Stores a rule under a new number. -/
  | save (name : Option String) (text : String) (tree : Tree) : Operation StoredRule
  /-- The rule with a number. -/
  | get (id : Int64) : Operation (Option StoredRule)
  /-- All rules, the highest number first. -/
  | list : Operation (List StoredRule)
  /-- Replaces text and tree of a rule, and gives the rule as it is then. -/
  | update (id : Int64) (text : String) (tree : Tree) : Operation (Option StoredRule)
  /-- Removes a rule, and tells whether it was there. -/
  | delete (id : Int64) : Operation Bool

/-- What a store does when it is asked. -/
structure Performed (σ α : Type) where
  /-- The state of the store afterwards. -/
  state : σ
  result : Except StorageFault α
  events : List Journal.Event

/-- A store whose state is a `σ`. -/
structure Backend (σ : Type) where
  /-- Answers an operation at a time. -/
  perform : {α : Type} → Time.Instant → Operation α → σ → Performed σ α

end Rulebook
