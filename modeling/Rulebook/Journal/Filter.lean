import Rulebook.Journal.Event
import Rulebook.Text.Alphanumeric
import Rulebook.Text.Blank
import Rulebook.Text.Parts

/-!
# Filters

A filter says which events the journal keeps. It is written as directives between commas. A
directive is a level, which is the limit for everything, or a target with a level, as in
`rule_engine=debug`, which is the limit for every part of the service whose name begins with the
target; without a level the target has no limit. What no directive fits is not kept.

A directive may also name a span, a field, or a field with its value in brackets, as in
`rule_engine[span{field=value}]`. With a field alone it is about the events that have the field.
With a span or a value it is about what happens within spans, where the service leaves no events, so
it fits nothing.

Of several directives that fit an event the most special one decides: that with the longest target,
then one with a field, and of those that do not differ in this the last.
-/

namespace Rulebook.Journal

/-- What a directive is about, besides its target. -/
inductive Scope where
  /-- All events. -/
  | everything
  /-- The events that have a field. -/
  | field (name : List Char)
  /-- What happens within some spans. -/
  | spans
  deriving DecidableEq, Repr

/-- The event is one of those that the scope is about. -/
def Scope.covers (e : Event) : Scope → Bool
  | .everything => true
  | .field name => e.fieldNames.any fun n => n.toList = name
  | .spans => false

/-- The first scope is less special than the second one. Of two fields the one that is greater as a
text is the more special one. -/
def Scope.lessSpecial : Scope → Scope → Bool
  | .everything, .field _ => true
  | .field a, .field b => decide (a < b)
  | _, _ => false

/-- A rule of a filter. -/
structure Directive where
  /-- The beginning of the targets that the directive is about. -/
  target : List Char
  scope : Scope
  /-- The greatest rank of an event that is kept. -/
  limit : Nat
  deriving DecidableEq, Repr

/-- A filter is a list of directives. -/
structure Filter where
  directives : List Directive
  deriving DecidableEq, Repr

namespace Directive

/-- The limit that lets everything through. -/
def noLimit : Nat := Level.trace.rank

/-- The names of limits, in the order of what they stand for. -/
def limitNames : List String := ["off", "error", "warn", "info", "debug", "trace"]

/-- The limit that a word names: a level in any case, or its rank. -/
def limitOf? (word : List Char) : Option Nat :=
  match Text.unsigned? word with
  | some n => if n ≤ noLimit then some n else none
  | none => limitNames.findIdx? fun name => name.toList = word.map Char.toLower

/-- The limit behind an equals sign; if nothing is there, there is no limit. -/
def writtenLimit? (word : List Char) : Option Nat :=
  if word.isEmpty then some noLimit else limitOf? word

/-- The character may begin a directive. -/
def mayBegin (c : Char) : Bool :=
  Text.isAlphanumeric c || c = '-' || c = ':' || c = '_' || c = '['

/-- The directive of a target and a scope, and what follows these. A limit must not be given if the
directive has blank characters in front. -/
def withScope? (target : List Char) (scope : Scope) (indented : Bool) (rest : List Char) :
    Option Directive :=
  if rest.all Text.isBlank then some ⟨target, scope, noLimit⟩
  else match rest with
    | '=' :: word => if indented then none else (writtenLimit? word).map (⟨target, scope, ·⟩)
    | _ => none

/-- Reads what stands in brackets, the first of which has been read: the name of a span, or perhaps
one, and a field in braces. Blank characters in front of a directive spoil the name of its field. -/
def takeScope (indented : Bool) (cs : List Char) : Option (Scope × List Char) :=
  let span := cs.takeWhile fun c => c ≠ ']' && c ≠ '\x7b'
  match cs.drop span.length with
  | ']' :: rest => some (.spans, rest)
  | '\x7b' :: cs =>
    let field := cs.takeWhile (· ≠ '\x7d')
    match cs.drop field.length with
    | '\x7d' :: ']' :: rest =>
      if field.isEmpty then none
      else if span.isEmpty && !field.contains '=' && !indented then some (.field field, rest)
      else some (.spans, rest)
    | _ => none
  | _ => none

/-- The directive that a text denotes. -/
def ofText? (cs : List Char) : Option Directive :=
  match Text.skipBlank cs with
  | [] => none
  | c :: visible =>
    let indented := decide (cs.length ≠ visible.length + 1)
    let target := cs.takeWhile fun c => c ≠ '=' && c ≠ '['
    if !mayBegin c then none
    else match cs.drop target.length with
      | '[' :: rest =>
        takeScope indented rest >>= fun (scope, rest) => withScope? target scope indented rest
      | [] =>
        -- a bare word is a limit if it can be one
        match limitOf? cs with
        | some limit => some ⟨[], .everything, limit⟩
        | none => some ⟨target, .everything, noLimit⟩
      | rest => withScope? target .everything indented rest

/-- The directive is about an event. -/
def fits (e : Event) (d : Directive) : Bool :=
  d.scope.covers e && d.target.isPrefixOf e.target.toList

/-- The first directive is less special than the second one. -/
def lessSpecial (a b : Directive) : Bool :=
  decide (a.target.length < b.target.length) ||
    (a.target.length = b.target.length && a.scope.lessSpecial b.scope)

/-- Of two directives, takes the later one if it fits the event and is as special as the other. -/
def better (e : Event) (best : Option Directive) (d : Directive) : Option Directive :=
  if d.fits e && best.all fun b => !d.lessSpecial b then some d else best

end Directive

namespace Filter

/-- The filter that keeps the events of one level and of the levels above it. -/
def upTo (level : Level) : Filter := ⟨[⟨[], .everything, level.rank⟩]⟩

/-- The filter that a text denotes. The empty text keeps errors only. -/
def ofText? (text : String) : Option Filter :=
  if text.isEmpty then some (upTo .error)
  else ((Text.parts ',' text.toList).mapM Directive.ofText?).map Filter.mk

/-- The greatest rank that an event may have to be kept. -/
def limit (f : Filter) (e : Event) : Nat :=
  ((f.directives.foldl (Directive.better e) none).map Directive.limit).getD 0

/-- The event is kept. -/
def keeps (f : Filter) (e : Event) : Bool :=
  decide (e.level.rank ≤ f.limit e)

/-- The filter of a process: what was given to the process comes before what its settings say, and
what is no filter does not count. -/
def select (given : Option String) (written : String) : Filter :=
  ((given.bind ofText?).or (ofText? written)).getD (upTo .info)

end Filter

end Rulebook.Journal
