import Mathlib.Data.List.Forall2
import Mathlib.Data.List.Nodup
import Rulebook.Proofs.Evaluation.FirstFault

/-!
# The record of an evaluation

An evaluation that is asked for a record writes a line for each node once the node has a value. The
record says of every node, in the order of `Tree.nodes`, where it is and what evaluating it by
itself gives; it has no influence on the value or the error (`Tree.execute_record`).

* A node is told from others by its path and not by its tree, since one tree may stand in several
  places. `Tree.subtree?` follows a path from the root, and `Tree.paths` lists the paths of all
  nodes in the order in which the nodes are finished: each path once, and every path that leads
  anywhere (`Tree.nodup_paths`, `Tree.mem_paths`).
* `Tree.IsRecord` says what a record is, line by line. A record is made with the path of its root
  general, so that the records of the two sides are records of parts of the tree
  (`Tree.map_path_run`, `Tree.recordedIn_run`).
* `Tree.visit` hands the lines written so far from node to node and extends the text of the path on
  the way down. It yields the same lines and the same outcome (`Tree.visit_eq_execute`).
-/

namespace Rulebook

variable {ctx : Context}

/-! ### Paths -/

namespace Tree

/-- The tree that a path leads to. -/
def subtree? : Tree → List Side → Option Tree
  | t, [] => some t
  | .operand _, _ :: _ => none
  | .node _ left _, .left :: path => left.subtree? path
  | .node _ _ right, .right :: path => right.subtree? path

/-- The paths of the nodes of a tree in the order in which the nodes are finished. -/
def paths : Tree → List (List Side)
  | .operand _ => [[]]
  | .node _ left right =>
    left.paths.map (.left :: ·) ++ (right.paths.map (.right :: ·) ++ [[]])

/-- A tree has one leaf more than it has operators. -/
theorem length_paths (t : Tree) : t.paths.length = 2 * t.operatorCount + 1 := by
  induction t with
  | operand text => rfl
  | node op l r ihl ihr =>
    simp only [paths, List.length_append, List.length_map, List.length_singleton, ihl, ihr,
      operatorCount_node]
    -- two sides with one leaf more than operators each, and one operator more
    omega

/-- The paths lead to the nodes, one after another. -/
theorem map_subtree?_paths (t : Tree) : t.paths.map t.subtree? = t.nodes.map some := by
  induction t with
  | operand text => rfl
  | node op l r ihl ihr =>
    rw [paths, nodes, List.map_append, List.map_append, List.map_map, List.map_map,
      List.map_append, List.map_append, ← ihl, ← ihr]
    rfl

/-- Every path that leads to a node is listed. -/
theorem mem_paths {t : Tree} {path : List Side} : path ∈ t.paths ↔ (t.subtree? path).isSome := by
  induction t generalizing path with
  | operand text => cases path <;> simp [paths, subtree?]
  | node op l r ihl ihr =>
    rcases path with _ | ⟨_ | _, path⟩ <;> simp [paths, subtree?, ihl, ihr]

/-- No path is listed twice: a path to the left is none to the right, and neither is empty. -/
theorem nodup_paths (t : Tree) : t.paths.Nodup := by
  induction t with
  | operand text => exact List.nodup_singleton _
  | node op l r ihl ihr =>
    rw [paths, List.nodup_append', List.nodup_append']
    refine ⟨ihl.map (List.cons_injective), ⟨ihr.map (List.cons_injective),
      List.nodup_singleton _, ?_⟩, ?_⟩
    · -- the path of the root has no step
      intro path hpath hnil
      obtain ⟨q, -, rfl⟩ := List.mem_map.1 hpath
      simp at hnil
    · -- the first step tells left from right
      intro path hpath hother
      obtain ⟨q, -, rfl⟩ := List.mem_map.1 hpath
      simp at hother

end Tree

namespace RecordLine

/-- A further step is written behind the path. -/
theorem pathText_concat (path : List Side) (side : Side) :
    pathText (path ++ [side]) = pathText path ++ "." ++ side.name := by
  rw [pathText, List.foldl_append]
  rfl

/-- The text of a path names its steps one after another, each behind a full stop. -/
theorem toList_pathText (path : List Side) :
    (pathText path).toList =
      "root".toList ++ path.flatMap fun side => '.' :: side.name.toList := by
  have hfold : ∀ start : String,
      (path.foldl (fun text side => text ++ "." ++ side.name) start).toList =
        start.toList ++ path.flatMap fun side => '.' :: side.name.toList := by
    induction path with
    | nil => simp
    | cons side path ih =>
      intro start
      rw [List.foldl_cons, ih, List.flatMap_cons]
      simp
  exact hfold "root"

/-- A path can be told from its text. -/
theorem pathText_injective : Function.Injective pathText := by
  intro p q h
  have htext := congrArg String.toList h
  rw [toList_pathText, toList_pathText] at htext
  have hsteps := List.append_cancel_left htext
  clear h htext
  induction p generalizing q with
  | nil => cases q with
    | nil => rfl
    | cons side q => simp at hsteps
  | cons side p ih =>
    cases q with
    | nil => simp at hsteps
    | cons side' q =>
      -- the first letter behind the full stop already tells the two sides apart
      cases side <;> cases side' <;> simp [Side.name] at hsteps
      · rw [ih hsteps]
      · rw [ih hsteps]

end RecordLine

/-! ### Lines -/

namespace Tree

/-- The line shows its path, and of the node what evaluating it by itself gives; of an operator also
what evaluating each of its two sides by itself gives. -/
inductive RecordedIn (ctx : Context) : Tree → RecordLine → Prop where
  | operand {raw : String} {line : RecordLine} {v : Value}
    (hv : (operand raw).evaluate ctx = .ok v)
    (htext : line.text = RecordLine.pathText line.path ++ ": " ++ raw ++ " => " ++ v.text) :
    RecordedIn ctx (operand raw) line
  | node {op : Operator} {left right : Tree} {line : RecordLine} {a b v : Value}
    (ha : left.evaluate ctx = .ok a) (hb : right.evaluate ctx = .ok b)
    (hv : (node op left right).evaluate ctx = .ok v)
    (htext : line.text = RecordLine.pathText line.path ++ ": " ++ a.text ++ " " ++ op.symbol ++
      " " ++ b.text ++ " => " ++ v.text) :
    RecordedIn ctx (node op left right) line

/-- The lines are a record of the tree. -/
structure IsRecord (ctx : Context) (t : Tree) (record : List RecordLine) : Prop where
  /-- There is one line for each operator and each operand. -/
  length_eq : record.length = 2 * t.operatorCount + 1
  /-- The lines have the paths of the nodes, in the order in which the nodes are finished. -/
  paths_eq : record.map RecordLine.path = t.paths
  /-- The path of each line leads to the node at the same place among the nodes. -/
  leads : record.map (fun line => t.subtree? line.path) = t.nodes.map some
  /-- Each line shows what the node at the same place among the nodes gives by itself. -/
  shows : List.Forall₂ (RecordedIn ctx) t.nodes record
  /-- The texts of the paths are all different. -/
  nodup : (record.map fun line => RecordLine.pathText line.path).Nodup
  /-- Every node has a line. -/
  covers : ∀ path s, t.subtree? path = some s → ∃ line ∈ record, line.path = path
  /-- The last line is that of the root. -/
  last : record.getLast?.map (fun line => RecordLine.pathText line.path) = some "root"

/-! ### Making a record -/

/-- An operand with a value writes one line. -/
theorem run_operand_eq_ok_iff {text : String} {path : List Side} {v : Value}
    {lines : List RecordLine} :
    (operand text).run ctx path = .ok (v, lines) ↔
      ctx.operand text = .ok v ∧ lines = [⟨path, .operand text v⟩] := by
  rw [run, bind_eq_ok_iff]
  constructor
  · rintro ⟨_, hv, h⟩
    cases h
    exact ⟨hv, rfl⟩
  · rintro ⟨hv, rfl⟩
    exact ⟨v, hv, rfl⟩

/-- An operator writes its line behind those of its two sides. -/
theorem run_node_eq_ok_iff {op : Operator} {l r : Tree} {path : List Side} {v : Value}
    {lines : List RecordLine} :
    (node op l r).run ctx path = .ok (v, lines) ↔
      ∃ a ls, l.run ctx (path ++ [.left]) = .ok (a, ls) ∧
        ∃ b rs, r.run ctx (path ++ [.right]) = .ok (b, rs) ∧
          op.apply a b = .ok v ∧ lines = ls ++ rs ++ [⟨path, .operator op a b v⟩] := by
  rw [run, bind_eq_ok_iff]
  constructor
  · rintro ⟨⟨a, ls⟩, hl, h⟩
    obtain ⟨⟨b, rs⟩, hr, h⟩ := bind_eq_ok_iff.1 h
    obtain ⟨_, hv, h⟩ := bind_eq_ok_iff.1 h
    cases h
    exact ⟨a, ls, hl, b, rs, hr, hv, rfl⟩
  · rintro ⟨a, ls, hl, b, rs, hr, hv, rfl⟩
    exact ⟨_, hl, bind_eq_ok_iff.2 ⟨_, hr, bind_eq_ok_iff.2 ⟨_, hv, rfl⟩⟩⟩

/-- With a record or without, the value is the same. -/
theorem evaluate_of_run {t : Tree} {path : List Side} {v : Value} {lines : List RecordLine}
    (h : t.run ctx path = .ok (v, lines)) : t.evaluate ctx = .ok v := by
  rw [← run_value ctx path, h]
  rfl

/-- The lines have the paths of the nodes, behind the path of the tree. -/
theorem map_path_run {t : Tree} {path : List Side} {v : Value} {lines : List RecordLine}
    (h : t.run ctx path = .ok (v, lines)) :
    lines.map RecordLine.path = t.paths.map (path ++ ·) := by
  induction t generalizing path v lines with
  | operand text =>
    obtain ⟨-, rfl⟩ := run_operand_eq_ok_iff.1 h
    simp [paths]
  | node op l r ihl ihr =>
    -- the sides are recorded with longer paths, which begin with the path of the tree
    obtain ⟨a, ls, hl, b, rs, hr, -, rfl⟩ := run_node_eq_ok_iff.1 h
    simp [paths, ihl hl, ihr hr, Function.comp_def]

/-- The lines show what the nodes give by themselves. -/
theorem recordedIn_run {t : Tree} {path : List Side} {v : Value} {lines : List RecordLine}
    (h : t.run ctx path = .ok (v, lines)) : List.Forall₂ (RecordedIn ctx) t.nodes lines := by
  have hv := evaluate_of_run h
  induction t generalizing path v lines with
  | operand text =>
    obtain ⟨-, rfl⟩ := run_operand_eq_ok_iff.1 h
    exact .cons (.operand hv rfl) .nil
  | node op l r ihl ihr =>
    obtain ⟨a, ls, hl, b, rs, hr, -, rfl⟩ := run_node_eq_ok_iff.1 h
    have ha := evaluate_of_run hl
    have hb := evaluate_of_run hr
    rw [nodes, List.append_assoc]
    -- the lines of the left side, those of the right side, and the line of the root
    refine List.rel_append (ihl hl ha) (List.rel_append (ihr hr hb) ?_)
    exact .cons (.node ha hb hv rfl) .nil

/-- What is written from the root on is a record of the tree. -/
theorem isRecord_run {t : Tree} {v : Value} {record : List RecordLine}
    (h : t.run ctx [] = .ok (v, record)) : t.IsRecord ctx record := by
  have hpaths : record.map RecordLine.path = t.paths := by
    simpa using map_path_run h
  have hnodup : (record.map RecordLine.path).Nodup := hpaths ▸ nodup_paths t
  refine { length_eq := ?length, paths_eq := hpaths, leads := ?leads, shows := recordedIn_run h,
           nodup := ?nodup, covers := ?covers, last := ?last }
  case length => rw [← length_paths, ← hpaths, List.length_map]
  case leads =>
    calc record.map (fun line => t.subtree? line.path)
        = (record.map RecordLine.path).map t.subtree? := by rw [List.map_map]; rfl
      _ = t.paths.map t.subtree? := by rw [hpaths]
      _ = t.nodes.map some := map_subtree?_paths t
  case nodup =>
    -- the paths are told apart, and so are their texts
    have htexts := hnodup.map RecordLine.pathText_injective
    rwa [List.map_map] at htexts
  case covers =>
    intro path s hs
    have hpath : path ∈ record.map RecordLine.path := by
      rw [hpaths, mem_paths, hs]
      rfl
    exact List.mem_map.1 hpath
  case last =>
    cases t with
    | operand text =>
      obtain ⟨-, rfl⟩ := run_operand_eq_ok_iff.1 h
      rfl
    | node op l r =>
      obtain ⟨a, ls, -, b, rs, -, -, rfl⟩ := run_node_eq_ok_iff.1 h
      rw [List.getLast?_concat]
      rfl

/-! ### Handing the lines on -/

/-- Evaluates a tree with the lines written so far, and extends the text of the path on the way
down. Lines are written, and paths are spelt out, only if the evaluation is `traced`. -/
def visit (ctx : Context) (traced : Bool) (path : String) (lines : List String) :
    Tree → Except EvalError (Value × List String)
  | .operand text => do
    let v ← ctx.operand text
    return (v, if traced then lines ++ [path ++ ": " ++ text ++ " => " ++ v.text] else lines)
  | .node op left right => do
    let (a, lines) ← left.visit ctx traced (Node.childPath traced path .left) lines
    let (b, lines) ← right.visit ctx traced (Node.childPath traced path .right) lines
    let v ← op.apply a b
    return (v, if traced then
        lines ++ [path ++ ": " ++ a.text ++ " " ++ op.symbol ++ " " ++ b.text ++ " => " ++ v.text]
      else lines)

/-- Without a record nothing is written. -/
theorem visit_untraced (path : String) (lines : List String) (t : Tree) :
    t.visit ctx false path lines = (t.evaluate ctx).map fun v => (v, lines) := by
  induction t generalizing path lines with
  | operand text =>
    rw [visit, evaluate]
    cases ctx.operand text <;> rfl
  | node op l r ihl ihr =>
    rw [visit, evaluate, ihl]
    cases l.evaluate ctx with
    | error e => rfl
    -- the lines come through the left side unchanged
    | ok a =>
      change (r.visit ctx false _ lines >>= _) = (r.evaluate ctx >>= _).map _
      rw [ihr]
      cases r.evaluate ctx with
      | error e => rfl
      | ok b =>
        change (op.apply a b >>= _) = (op.apply a b).map _
        cases op.apply a b <;> rfl

/-- With a record, the lines of a tree are written behind those that are there. -/
theorem visit_traced (path : List Side) (lines : List String) (t : Tree) :
    t.visit ctx true (RecordLine.pathText path) lines =
      (t.run ctx path).map fun r => (r.1, lines ++ r.2.map RecordLine.text) := by
  induction t generalizing path lines with
  | operand text =>
    rw [visit, run]
    cases ctx.operand text <;> rfl
  | node op l r ihl ihr =>
    -- the path is handed down as a text, and the record has it as a list
    have hchild : ∀ side, Node.childPath true (RecordLine.pathText path) side =
        RecordLine.pathText (path ++ [side]) := fun side =>
      (RecordLine.pathText_concat path side).symm
    rw [visit, run, hchild, hchild, ihl]
    cases l.run ctx (path ++ [.left]) with
    | error e => rfl
    | ok a =>
      change (r.visit ctx true _ (lines ++ a.2.map RecordLine.text) >>= _) =
        (r.run ctx (path ++ [.right]) >>= _).map _
      rw [ihr]
      cases r.run ctx (path ++ [.right]) with
      | error e => rfl
      | ok b =>
        change (op.apply a.1 b.1 >>= _) = (op.apply a.1 b.1 >>= _).map _
        cases op.apply a.1 b.1 with
        | error e => rfl
        | ok v =>
          -- the line of the root comes behind those of both sides
          simp [RecordLine.text, Except.map, bind, Except.bind, pure, Except.pure]

/-- Handing the lines on gives what an execution gives. -/
theorem visit_eq_execute (t : Tree) (traced : Bool) :
    t.visit ctx traced "root" [] =
      (t.execute ctx traced).map fun o => (o.value, o.record.map RecordLine.text) := by
  cases traced with
  | false =>
    rw [visit_untraced, execute]
    cases t.evaluate ctx <;> rfl
  | true =>
    rw [show "root" = RecordLine.pathText [] from rfl, visit_traced, execute]
    cases t.run ctx [] <;> rfl

/-- With a record or without, an execution gives the value of the tree, or its error. -/
theorem map_value_execute (t : Tree) (traced : Bool) :
    (t.execute ctx traced).map Outcome.value = t.evaluate ctx := by
  cases traced with
  | false =>
    rw [execute]
    cases t.evaluate ctx <;> rfl
  | true =>
    rw [← run_value ctx [], execute]
    cases t.run ctx [] <;> rfl

/-- **The record is faithful and has no influence.** With a record or without, an execution gives
the value of the tree or its error. A record that was asked for says of each node, in the order in
which nodes are finished, where it is and what it gives by itself; one that was not asked for is
empty. The lines are those of an evaluation that hands them on from node to node. -/
theorem execute_record (ctx : Context) (t : Tree) :
    (∀ traced, (t.execute ctx traced).map Outcome.value = t.evaluate ctx) ∧
    (∀ o, t.execute ctx true = .ok o → t.IsRecord ctx o.record) ∧
    (∀ o, t.execute ctx false = .ok o → o.record = []) ∧
    ∀ traced, t.visit ctx traced "root" [] =
      (t.execute ctx traced).map fun o => (o.value, o.record.map RecordLine.text) := by
  refine ⟨map_value_execute t, fun o ho => ?_, fun o ho => ?_, visit_eq_execute t⟩
  · -- with a record, the value comes with the lines
    rw [execute, if_pos rfl] at ho
    cases hrun : t.run ctx [] with
    | error e =>
      rw [hrun] at ho
      cases ho
    | ok r =>
      rw [hrun] at ho
      cases ho
      exact isRecord_run hrun
  · -- without one, no line is written
    rw [execute, if_neg Bool.false_ne_true] at ho
    cases hv : t.evaluate ctx with
    | error e =>
      rw [hv] at ho
      cases ho
    | ok v =>
      rw [hv] at ho
      cases ho
      rfl

/-- One operand stands on both sides, and has a line for each of its places. -/
theorem execute_record_bothSides :
    ∃ o, (node (.logical .and) (operand "a") (operand "a")).execute
        (.ofList [("a", .boolean true)]) true = .ok o ∧
      IsRecord (.ofList [("a", .boolean true)])
        (node (.logical .and) (operand "a") (operand "a")) o.record ∧
      o.record.map RecordLine.text =
        ["root.left: a => true", "root.right: a => true", "root: true AND true => true"] := by
  let t : Tree := node (.logical .and) (operand "a") (operand "a")
  let o : Outcome := ⟨.boolean true, [⟨[.left], .operand "a" (.boolean true)⟩,
    ⟨[.right], .operand "a" (.boolean true)⟩,
    ⟨[], .operator (.logical .and) (.boolean true) (.boolean true) (.boolean true)⟩]⟩
  have ho : t.execute (.ofList [("a", .boolean true)]) true = .ok o := by decide +kernel
  exact ⟨o, ho, (execute_record _ t).2.1 o ho, by decide +kernel⟩

end Tree

end Rulebook
