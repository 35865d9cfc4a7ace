import Mathlib.Data.List.Forall2
import Placement.Attempt
import Placement.Expression.Traversal
/-! # Walking and rebuilding go the same way

Host calls are found by a walk over the nodes of a tree and replaced while the tree is
rebuilt, so the two must meet the nodes in one order.  **Rebuilding a tree is one pass over
the nodes of the walk** (`foldlM_rebuildNext`), whatever the function does that is called:
at each node the answers for its children are put in their place, and the function is called
once.

What the walk goes by is `children`; what rebuilding needs of a node is that its parts come
in the order of `children`, and go back into it in the same order (`rebuild_eq`).
-/
namespace Placement
namespace Expression

/-! ## A node and its children -/

/-- Children two by two, as the entries of a map. -/
def pairUp : List Expression → List (Expression × Expression)
  | key :: value :: rest => (key, value) :: pairUp rest
  | _ => []

/-- A node with other children in the place of its own; there have to be as many. -/
def withChildren : Expression → List Expression → Expression
  | .list _, elements => .list elements
  | .map _, parts => .map (pairUp parts)
  | .member _ name, [target] => .member target name
  | .index _ _, [target, position] => .index target position
  | .call function _, args => .call function args
  | .method _ function _, receiver :: args => .method receiver function args
  | .unary op _, [operand] => .unary op operand
  | .arithmetic op _ _, [left, right] => .arithmetic op left right
  | .relation op _ _, [left, right] => .relation op left right
  | .and _ _, [left, right] => .and left right
  | .or _ _, [left, right] => .or left right
  | .conditional _ _ _, [condition, yes, no] => .conditional condition yes no
  | node, _ => node

theorem pairUp_flatMap (entries : List (Expression × Expression)) :
    pairUp (entries.flatMap fun (key, value) => [key, value]) = entries := by
  induction entries with
  | nil => rfl
  | cons entry rest ih => exact congrArg (entry :: ·) ih

/-- A node with its own children is itself. -/
@[simp] theorem withChildren_children (e : Expression) : e.withChildren e.children = e := by
  cases e <;> first | rfl | exact congrArg map (pairUp_flatMap _)

/-! ## Rebuilding by children -/

section
variable {m : Type → Type} [Monad m] [LawfulMonad m] (f : Expression → m Expression)

theorem rebuildEntries_eq (entries : List (Expression × Expression)) :
    rebuildEntries f entries =
      (do
        let parts ← rebuildList f (entries.flatMap fun (key, value) => [key, value])
        pure (pairUp parts)) := by
  induction entries with
  | nil => simp [rebuildEntries, rebuildList, pairUp]
  | cons entry rest ih =>
      obtain ⟨key, value⟩ := entry
      simp [rebuildEntries, rebuildList, pairUp, ih]

/-- **Rebuilding goes by the children**: they are rebuilt from first to last, and the function
is called on the node with the answers in their place. -/
theorem rebuild_eq (e : Expression) :
    e.rebuild f = rebuildList f e.children >>= fun parts => f (e.withChildren parts) := by
  cases e <;>
    simp [rebuild, rebuildList, rebuildEntries_eq, children, withChildren]

/-- What is done with rebuilt trees may rely on their number. -/
theorem rebuildList_bind_congr {α : Type} {next next' : List Expression → m α}
    (es : List Expression) (h : ∀ parts, parts.length = es.length → next parts = next' parts) :
    rebuildList f es >>= next = rebuildList f es >>= next' := by
  induction es generalizing next next' with
  | nil => simp [rebuildList, h]
  | cons e rest ih =>
      simp only [rebuildList, bind_assoc, pure_bind]
      refine congrArg (e.rebuild f >>= ·) (funext fun part => ?_)
      exact ih fun parts hparts => h (part :: parts) (congrArg Nat.succ hparts)

/-! ## One pass over the nodes of a walk -/

/-- One call of `f` on the way through the nodes of a walk.  The answers that are not used yet
are kept, the latest first; those for the children of the node go into their places. -/
def rebuildNext (answers : List Expression) (node : Expression) : m (List Expression) := do
  let arity := node.children.length
  let answer ← f (node.withChildren (answers.take arity).reverse)
  pure (answer :: answers.drop arity)

variable {f}

theorem foldlM_rebuildNext_list {es : List Expression}
    (h : ∀ e ∈ es, ∀ answers, e.nodes.foldlM (rebuildNext f) answers =
      e.rebuild f >>= fun answer => pure (answer :: answers))
    (answers : List Expression) :
    (es.flatMap nodes).foldlM (rebuildNext f) answers =
      rebuildList f es >>= fun parts => pure (parts.reverse ++ answers) := by
  induction es generalizing answers with
  | nil => simp [rebuildList]
  | cons e rest ih =>
      rw [List.forall_mem_cons] at h
      simp only [List.flatMap_cons, List.foldlM_append, h.1, bind_assoc, pure_bind, rebuildList,
        ih h.2, List.reverse_cons, List.append_assoc, List.cons_append, List.nil_append]

/-- **Rebuilding a tree is one pass over the nodes of the walk.** -/
theorem foldlM_rebuildNext (e : Expression) (answers : List Expression) :
    e.nodes.foldlM (rebuildNext f) answers =
      e.rebuild f >>= fun answer => pure (answer :: answers) := by
  induction e using induction_on_children generalizing answers with
  | h e ih =>
      rw [nodes_eq, List.foldlM_append, foldlM_rebuildNext_list ih, rebuild_eq, bind_assoc,
        bind_assoc]
      refine rebuildList_bind_congr f e.children fun parts hparts => ?_
      rw [pure_bind, List.foldlM_cons, rebuildNext, ← hparts]
      simp

end

/-! ## Functions that may fail -/

/-- A call of a function while a tree is rebuilt: what it was called on, and its answer. -/
structure Visit (ε : Type) where
  node : Expression
  answer : Except ε Expression

/-- A function that keeps a record of its calls, the latest last. -/
def recordCalls {σ ε : Type} (f : Expression → Attempt σ ε Expression) (node : Expression) :
    Attempt (σ × List (Visit ε)) ε Expression := fun (s, visits) =>
  let done := (f node).outcome s
  (done.1, done.2, visits ++ [⟨node, done.1⟩])

namespace Visit
variable {ε : Type}

/-- A call on a node of a walk, rebuilt: with other children, as many as it has. -/
def On (visit : Visit ε) (node : Expression) : Prop :=
  ∃ parts, parts.length = node.children.length ∧ visit.node = node.withChildren parts

/-- A call on a node of a walk that was answered. -/
def AnsweredOn (node : Expression) (visit : Visit ε) : Prop :=
  visit.On node ∧ ∃ answer, visit.answer = .ok answer

/-- **The calls go along the nodes of a walk**, one for each, up to the first that fails. -/
def GoAlong {α : Type} (nodes : List Expression) (visits : List (Visit ε)) : Except ε α → Prop
  | .ok _ => List.Forall₂ AnsweredOn nodes visits
  | .error fault =>
      ∃ before node after answered last, nodes = before ++ node :: after ∧
        visits = answered ++ [last] ∧ List.Forall₂ AnsweredOn before answered ∧
        last.On node ∧ last.answer = .error fault

variable {α β : Type} {ns ms : List Expression} {visits more : List (Visit ε)} {fault : ε}

theorem GoAlong.append {result : Except ε β} (h : List.Forall₂ AnsweredOn ns visits)
    (h' : GoAlong ms more result) : GoAlong (ns ++ ms) (visits ++ more) result := by
  cases result with
  | ok x => exact List.rel_append h h'
  | error fault =>
      obtain ⟨before, node, after, answered, last, rfl, rfl, hanswered, hlast⟩ := h'
      exact ⟨ns ++ before, node, after, visits ++ answered, last,
        (List.append_assoc _ _ _).symm, (List.append_assoc _ _ _).symm,
        List.rel_append h hanswered, hlast⟩

/-- What fails leaves the rest of the walk out. -/
theorem GoAlong.stop (h : GoAlong ns visits (.error fault : Except ε α)) (ms : List Expression) :
    GoAlong (ns ++ ms) visits (.error fault : Except ε β) := by
  obtain ⟨before, node, after, answered, last, rfl, hvisits⟩ := h
  exact ⟨before, node, after ++ ms, answered, last, by simp, hvisits⟩

end Visit

/-- **A step that calls a function along the nodes of a walk**: it does the same with a record,
and the record holds these calls. -/
def CallsAlong {σ ε α : Type} (nodes : List Expression) (step : Attempt σ ε α)
    (noting : Attempt (σ × List (Visit ε)) ε α) : Prop :=
  ∀ s visits, ∃ result t more, step.outcome s = (result, t) ∧
    noting.outcome (s, visits) = (result, t, visits ++ more) ∧ Visit.GoAlong nodes more result

section
variable {σ ε α β : Type} {ns ms : List Expression}

theorem CallsAlong.bind {step : Attempt σ ε α} {noting : Attempt (σ × List (Visit ε)) ε α}
    {next : α → Attempt σ ε β} {next' : α → Attempt (σ × List (Visit ε)) ε β}
    (h : CallsAlong ns step noting) (hnext : ∀ x, CallsAlong ms (next x) (next' x)) :
    CallsAlong (ns ++ ms) (step >>= next) (noting >>= next') := by
  intro s visits
  obtain ⟨result, t, more, hstep, hnoting, halong⟩ := h s visits
  cases result with
  | error fault =>
      exact ⟨.error fault, t, more, Attempt.outcome_bind_error hstep,
        Attempt.outcome_bind_error hnoting, halong.stop ms⟩
  | ok x =>
      obtain ⟨result, u, last, hstep', hnoting', halong'⟩ := hnext x t (visits ++ more)
      refine ⟨result, u, more ++ last, ?_, ?_, halong'.append halong⟩
      · rw [Attempt.outcome_bind_ok hstep, hstep']
      · rw [Attempt.outcome_bind_ok hnoting, hnoting', List.append_assoc]

variable {f : Expression → Attempt σ ε Expression}

theorem outcome_recordCalls {node : Expression} {s t : σ} {answer : Except ε Expression}
    (h : (f node).outcome s = (answer, t)) (visits : List (Visit ε)) :
    (recordCalls f node).outcome (s, visits) = (answer, t, visits ++ [⟨node, answer⟩]) :=
  congrArg (fun done => (done.1, done.2, visits ++ [⟨node, done.1⟩])) h

/-- One call, on a rebuilt node. -/
theorem callsAlong_call {node : Expression} {parts : List Expression}
    (h : parts.length = node.children.length) :
    CallsAlong [node] (f (node.withChildren parts)) (recordCalls f (node.withChildren parts)) := by
  intro s visits
  rcases hcall : (f (node.withChildren parts)).outcome s with ⟨answer, t⟩
  refine ⟨answer, t, [⟨node.withChildren parts, answer⟩], rfl, outcome_recordCalls hcall visits, ?_⟩
  have hon : (⟨node.withChildren parts, answer⟩ : Visit ε).On node := ⟨parts, h, rfl⟩
  cases answer with
  | ok answer => exact List.forall₂_cons.mpr ⟨⟨hon, answer, rfl⟩, .nil⟩
  | error fault => exact ⟨[], node, [], [], _, rfl, rfl, .nil, hon, rfl⟩

/-- The children are rebuilt from first to last, and what comes next goes on behind them. -/
theorem callsAlong_rebuildList {es : List Expression} {next : List Expression → Attempt σ ε α}
    {next' : List Expression → Attempt (σ × List (Visit ε)) ε α}
    (h : ∀ e ∈ es, CallsAlong e.nodes (e.rebuild f) (e.rebuild (recordCalls f)))
    (hnext : ∀ parts, parts.length = es.length → CallsAlong ns (next parts) (next' parts)) :
    CallsAlong (es.flatMap nodes ++ ns) (rebuildList f es >>= next)
      (rebuildList (recordCalls f) es >>= next') := by
  induction es generalizing next next' with
  | nil =>
      simp only [rebuildList, pure_bind]
      exact hnext [] rfl
  | cons e rest ih =>
      rw [List.forall_mem_cons] at h
      simp only [rebuildList, bind_assoc, pure_bind, List.flatMap_cons, List.append_assoc]
      refine h.1.bind fun part => ih h.2 fun parts hparts => ?_
      exact hnext (part :: parts) (congrArg Nat.succ hparts)

/-- Rebuilding a tree calls the function along its nodes. -/
theorem callsAlong_rebuild (e : Expression) :
    CallsAlong e.nodes (e.rebuild f) (e.rebuild (recordCalls f)) := by
  induction e using induction_on_children with
  | h e ih =>
      rw [nodes_eq, rebuild_eq, rebuild_eq]
      exact callsAlong_rebuildList ih fun _ hparts => callsAlong_call hparts

end

/-! ## The two traversals -/

/-- **Walking and rebuilding agree.**  The walk goes through the nodes of the children and comes
to the root last.  Rebuilding is one pass over the nodes of the walk, with one call at each, on
the node with the answers for its children in their places; a function that returns what it is
given leaves the tree as it is.  A function with a state of its own that may fail is called
along the walk up to the node on which it fails first, and that fault is the result. -/
theorem rebuild_along_walk (e : Expression) :
    e.nodes = e.children.flatMap nodes ++ [e] ∧
    (∀ {m : Type → Type} [Monad m] [LawfulMonad m] (f : Expression → m Expression),
      e.nodes.foldlM (rebuildNext f) [] = e.rebuild f >>= fun answer => pure [answer]) ∧
    (∀ {m : Type → Type} [Monad m] [LawfulMonad m],
      e.rebuild (pure : Expression → m Expression) = pure e) ∧
    ∀ {σ ε : Type} (f : Expression → Attempt σ ε Expression) (s : σ),
      ∃ result t visits, (e.rebuild f).outcome s = (result, t) ∧
        (e.rebuild (recordCalls f)).outcome (s, []) = (result, t, visits) ∧
        Visit.GoAlong e.nodes visits result := by
  refine ⟨nodes_eq e, fun f => foldlM_rebuildNext e [], ?_, fun f s => ?_⟩
  · exact rebuild_eq_self e fun _ _ => rfl
  · exact callsAlong_rebuild e s []

/-- Counts its calls, puts `5` in the place of a call on a receiver and refuses comparisons. -/
def refuseComparisons : Expression → Attempt Nat String Expression
  | .method _ _ _ => fun calls => (.ok (.literal (.int 5)), calls + 1)
  | .relation _ _ _ => fun calls => (.error "comparison", calls + 1)
  | node => fun calls => (.ok node, calls + 1)

/-- A host call that is replaced before the comparison with it fails, at the fourth node. -/
theorem rebuild_along_walk_refused :
    ∃ (e : Expression) (visits : List (Visit String)),
      e = .relation .greater (.method (.ident "platform") "daysSince" []) (.literal (.int 3)) ∧
      e.nodes.foldlM (rebuildNext (pure : Expression → Id Expression)) [] = pure [e] ∧
      (e.rebuild (recordCalls refuseComparisons)).outcome (0, []) =
        (.error "comparison", 4, visits) ∧
      visits.map Visit.node =
        [.ident "platform", .method (.ident "platform") "daysSince" [], .literal (.int 3),
          .relation .greater (.literal (.int 5)) (.literal (.int 3))] ∧
      Visit.GoAlong e.nodes visits (.error "comparison" : Except String Expression) := by
  obtain ⟨-, hfold, hsame, hcalls⟩ := rebuild_along_walk
    (.relation .greater (.method (.ident "platform") "daysSince" []) (.literal (.int 3)))
  obtain ⟨result, t, visits, hrun, hrecord, halong⟩ := hcalls refuseComparisons 0
  cases hrun
  cases hrecord
  refine ⟨_, _, rfl, ?_, rfl, rfl, halong⟩
  rw [hfold, hsame, pure_bind]

end Expression
end Placement
