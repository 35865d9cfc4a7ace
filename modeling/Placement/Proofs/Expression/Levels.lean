import Mathlib.Data.List.Basic
import Mathlib.Logic.Relation
import Placement.Expression.Evaluation
import Placement.Proofs.Expression.Height
import Placement.Proofs.Expression.Rebuilding
/-! # Depth bounds recursion

`Expression.depth` is found by a search over pending nodes, each with its level.  **In
whatever order the pending nodes are taken, the search ends, and it ends with the height of
the tree** (`Search.Turn`): what each turn leaves as it is, is the deepest level that can
still be reached, and what it lowers is the number of nodes that are still to be visited.

Trees of bounded depth are safe to recurse on.  A traversal is written as what it does at one
node, asking itself for the rest (`Traverses`); `within` cuts such a recursion off after so many
levels, and **a traversal that asks for parts of the tree only is never cut off within the
depth of the tree** (`Traverses.within_eq`).
-/
namespace Placement
namespace Expression

/-! ## The search -/

/-- A search for the deepest level: the deepest one so far, and the nodes that are still to be
visited, each with its level. -/
structure Search where
  deepest : Nat
  pending : List (Expression × Nat)

namespace Search

/-- **One turn of the search.**  A pending node is taken out, its level counts, and its children
are put in, one level further down.  Which node is taken, and where the children go, is left
open. -/
inductive Turn : Search → Search → Prop
  | visit {deepest level : Nat} {e : Expression} {pending rest pending' : List (Expression × Nat)} :
      pending.Perm ((e, level) :: rest) →
      pending'.Perm (e.children.map (·, level + 1) ++ rest) →
      Turn ⟨deepest, pending⟩ ⟨max deepest level, pending'⟩

/-- The deepest level that will have been reached at the end. -/
def goal (s : Search) : Nat := max s.deepest (reach s.pending)

/-- How many nodes are still to be visited, those that are not yet pending included. -/
def left (s : Search) : Nat := sizeList (s.pending.map Prod.fst)

theorem reach_perm {pending pending' : List (Expression × Nat)} (h : pending.Perm pending') :
    reach pending = reach pending' := by
  induction h with
  | nil => rfl
  | cons _ _ ih => rw [reach, reach, ih]
  | swap => simp only [reach, Nat.max_left_comm]
  | trans _ _ ih ih' => exact ih.trans ih'

theorem sizeList_perm {es es' : List Expression} (h : es.Perm es') :
    sizeList es = sizeList es' := by
  induction h with
  | nil => rfl
  | cons _ _ ih => rw [sizeList, sizeList, ih]
  | swap => simp only [sizeList, Nat.add_left_comm]
  | trans _ _ ih ih' => exact ih.trans ih'

theorem Turn.goal_eq {s s' : Search} (h : Turn s s') : s'.goal = s.goal := by
  obtain @⟨deepest, level, e, pending, rest, pending', hpending, hpending'⟩ := h
  have hlevel := max_reach_level level e.children
  simp only [goal, reach_perm hpending, reach_perm hpending', reach_append, reach]
  omega

theorem Turn.left_eq {s s' : Search} (h : Turn s s') : s.left = s'.left + 1 := by
  obtain @⟨deepest, level, e, pending, rest, pending', hpending, hpending'⟩ := h
  have hsize := size_eq_sizeList_children e
  have hchildren : (e.children.map (·, level + 1)).map Prod.fst = e.children := by
    rw [List.map_map]
    exact List.map_id _
  simp only [left, sizeList_perm (hpending.map _), sizeList_perm (hpending'.map _),
    List.map_append, hchildren, sizeList_append, List.map_cons, sizeList]
  omega

/-- No search goes on for ever. -/
theorem turn_wellFounded : WellFounded fun s' s => Turn s s' :=
  Subrelation.wf (fun h => Nat.lt_of_succ_le (Nat.le_of_eq h.left_eq.symm)) (measure left).wf

theorem exists_turn {s : Search} (h : s.pending ≠ []) : ∃ s', Turn s s' := by
  obtain ⟨deepest, pending⟩ := s
  obtain ⟨⟨e, level⟩, rest, rfl⟩ := List.exists_cons_of_ne_nil h
  exact ⟨_, .visit (.refl _) (.refl _)⟩

theorem goal_of_turns {s s' : Search} (h : Relation.ReflTransGen Turn s s') :
    s'.goal = s.goal := by
  induction h with
  | refl => rfl
  | tail _ hturn ih => rw [hturn.goal_eq, ih]

/-- **A search that has come to its end has found the depth of the tree.** -/
theorem deepest_of_turns {e : Expression} {s : Search}
    (h : Relation.ReflTransGen Turn ⟨0, [(e, 1)]⟩ s) (hend : s.pending = []) :
    s.deepest = e.depth := by
  have hgoal := goal_of_turns h
  rw [goal, goal, hend, reach, Nat.max_zero] at hgoal
  rw [hgoal, depth, depthFrom_eq]

end Search

/-! ## The depth of the parts -/

theorem le_heightList {child : Expression} {es : List Expression} (h : child ∈ es) :
    child.height ≤ heightList es := by
  induction es with
  | nil => cases h
  | cons e rest ih =>
      rw [heightList]
      rcases List.mem_cons.mp h with rfl | hrest
      · exact Nat.le_max_left _ _
      · exact Nat.le_trans (ih hrest) (Nat.le_max_right _ _)

theorem heightList_eq (es : List Expression) : heightList es = (es.map depth).foldr max 0 := by
  induction es with
  | nil => rfl
  | cons e rest ih => rw [heightList, ih, List.map_cons, List.foldr_cons, depth_eq_height]

/-- The depth by recursion. -/
theorem depth_eq_children (e : Expression) :
    e.depth = (e.children.map depth).foldr max 0 + 1 := by
  rw [depth_eq_height, height_eq_heightList_children, heightList_eq]

/-- The nodes of a tree below its root. -/
def parts (e : Expression) : List Expression := e.children.flatMap nodes

theorem height_le_of_mem_nodes {e node : Expression} (h : node ∈ e.nodes) :
    node.height ≤ e.height := by
  induction e using induction_on_children with
  | h e ih =>
      rw [nodes_eq, List.mem_append, List.mem_singleton, List.mem_flatMap] at h
      rcases h with ⟨child, hchild, hnode⟩ | rfl
      · have hheight := height_eq_heightList_children e
        have hle := Nat.le_trans (ih child hchild hnode) (le_heightList hchild)
        omega
      · exact Nat.le_refl _

/-- Every part of a tree is less deep than the tree. -/
theorem depth_lt_of_mem_parts {e part : Expression} (h : part ∈ e.parts) :
    part.depth < e.depth := by
  obtain ⟨child, hchild, hpart⟩ := List.mem_flatMap.mp h
  have hheight := height_eq_heightList_children e
  have hle := Nat.le_trans (height_le_of_mem_nodes hpart) (le_heightList hchild)
  rw [depth_eq_height, depth_eq_height]
  omega

theorem mem_parts_of_mem_children {e child : Expression} (h : child ∈ e.children) :
    child ∈ e.parts := by
  refine List.mem_flatMap.mpr ⟨child, h, ?_⟩
  rw [nodes_eq]
  exact List.mem_append_right _ List.mem_cons_self

/-! ## Levels of recursion -/

section
variable {α : Type}

/-- **A recursion over trees**: `body` says what is done at one node, given the answers for other
trees, and asks only for the answers for parts of the tree. -/
structure Traverses (body : (Expression → α) → Expression → α) (run : Expression → α) : Prop where
  unfolds : ∀ e, run e = body run e
  descends : ∀ e self other, (∀ part ∈ e.parts, self part = other part) → body self e = body other e

/-- So many levels of a recursion; what is asked for below them is answered by `cut`. -/
def within (body : (Expression → α) → Expression → α) (cut : Expression → α) :
    Nat → Expression → α
  | 0 => cut
  | levels + 1 => body (within body cut levels)

/-- **A recursion goes down as many levels as the tree is deep**, and no further: what is done below
does not matter. -/
theorem Traverses.within_eq {body : (Expression → α) → Expression → α} {run : Expression → α}
    (h : Traverses body run) (cut : Expression → α) {levels : Nat} {e : Expression}
    (hlevels : e.depth ≤ levels) : within body cut levels e = run e := by
  induction levels generalizing e with
  | zero =>
      have hpos := depth_eq_children e
      omega
  | succ levels ih =>
      calc within body cut (levels + 1) e
          = body (within body cut levels) e := rfl
        _ = body run e := h.descends e _ _ fun part hpart =>
            ih (Nat.le_of_lt_succ (Nat.lt_of_lt_of_le (depth_lt_of_mem_parts hpart) hlevels))
        _ = run e := (h.unfolds e).symm

end

/-! ## The traversals -/

/-- What the walk does at one node. -/
def walkNode (self : Expression → List Expression) (e : Expression) : List Expression :=
  e.children.flatMap self ++ [e]

theorem traverses_walk : Traverses walkNode nodes where
  unfolds := nodes_eq
  descends e self other h := by
    rw [walkNode, walkNode,
      List.flatMap_congr fun child hchild => h child (mem_parts_of_mem_children hchild)]

section
variable {m : Type → Type} [Monad m]

theorem mapM_congr_mem {α β : Type} [LawfulMonad m] {xs : List α} {f g : α → m β}
    (h : ∀ x ∈ xs, f x = g x) : xs.mapM f = xs.mapM g := by
  induction xs with
  | nil => rfl
  | cons x rest ih =>
      rw [List.forall_mem_cons] at h
      rw [List.mapM_cons, List.mapM_cons, h.1, ih h.2]

/-- What rebuilding does at one node. -/
def rebuildNode (f : Expression → m Expression) (self : Expression → m Expression)
    (e : Expression) : m Expression := do
  let parts ← e.children.mapM self
  f (e.withChildren parts)

variable [LawfulMonad m] (f : Expression → m Expression)

theorem rebuildList_eq_mapM (es : List Expression) : rebuildList f es = es.mapM (rebuild f) := by
  induction es with
  | nil => rfl
  | cons e rest ih => rw [rebuildList, List.mapM_cons, ih]

theorem traverses_rebuild : Traverses (rebuildNode f) (rebuild f) where
  unfolds e := by rw [rebuild_eq, rebuildList_eq_mapM, rebuildNode]
  descends e self other h := by
    rw [rebuildNode, rebuildNode,
      mapM_congr_mem fun child hchild => h child (mem_parts_of_mem_children hchild)]

end

/-- One more entry of a map literal. -/
def putEvaluated (self : Expression → Except Fault Value) (stored : List (String × Value))
    (entry : Expression × Expression) : Except Fault (List (String × Value)) := do
  let key ← self entry.1
  let key ← key.asKey
  let v ← self entry.2
  .ok (Entries.put key v stored)

/-- What evaluation does at one node. -/
def evalNode (ctx : Context) (self : Expression → Except Fault Value) :
    Expression → Except Fault Value
  | .literal value => .ok value.value
  | .ident name =>
      match ctx.namespace? name with
      | some v => .ok v
      | none => .error (.unknownIdentifier name)
  | .list elements => do
      let items ← elements.mapM self
      .ok (.list items)
  | .map entries => do
      let entries ← entries.foldlM (putEvaluated self) []
      .ok (.map entries)
  | .member target name => do
      let target ← self target
      target.entry name
  | .index target position => do
      let target ← self target
      let position ← self position
      target.element position
  | .call function args =>
      if function = "has" then
        match args with
        | [.member target name] => do
            let target ← self target
            target.hasAttribute name
        | _ => .error (.noSuchOverload "has" ["expr"])
      else do
        let args ← args.mapM self
        callFunction function args
  | .method receiver function args => do
      let receiver ← self receiver
      let args ← args.mapM self
      callFunction function (receiver :: args)
  | .unary op operand => do
      let v ← self operand
      op.apply v
  | .arithmetic op left right => do
      let left ← self left
      let right ← self right
      op.apply left right
  | .relation op left right => do
      let left ← self left
      let right ← self right
      let b ← op.apply left right
      .ok (.bool b)
  | .and left right => (conjunction (truth (self left)) (truth (self right))).map .bool
  | .or left right => (disjunction (truth (self left)) (truth (self right))).map .bool
  | .conditional condition yes no => do
      match ← self condition with
      | .bool true => self yes
      | .bool false => self no
      | other => .error (mismatch "_?_:_" [other])

theorem evalList_eq_mapM (ctx : Context) (es : List Expression) :
    evalList ctx es = es.mapM (eval ctx) := by
  induction es with
  | nil => rfl
  | cons e rest ih =>
      rw [evalList, List.mapM_cons, ih]
      rfl

theorem evalEntries_eq_foldlM (ctx : Context) (entries : List (Expression × Expression))
    (stored : List (String × Value)) :
    evalEntries ctx entries stored = entries.foldlM (putEvaluated (eval ctx)) stored := by
  induction entries generalizing stored with
  | nil => rfl
  | cons entry rest ih =>
      obtain ⟨key, value⟩ := entry
      simp only [evalEntries, List.foldlM_cons, putEvaluated, bind_assoc, ih]
      rfl

theorem foldlM_putEvaluated_congr {self other : Expression → Except Fault Value}
    (entries : List (Expression × Expression))
    (h : ∀ e ∈ entries.flatMap (fun (key, value) => [key, value]), self e = other e)
    (stored : List (String × Value)) :
    entries.foldlM (putEvaluated self) stored = entries.foldlM (putEvaluated other) stored := by
  induction entries generalizing stored with
  | nil => rfl
  | cons entry rest ih =>
      obtain ⟨key, value⟩ := entry
      simp only [List.flatMap_cons, List.forall_mem_append, List.forall_mem_cons] at h
      obtain ⟨⟨hkey, hvalue, -⟩, hrest⟩ := h
      simp only [List.foldlM_cons, putEvaluated, hkey, hvalue, ih hrest]

/-- `has` looks past its argument, at what the argument is a member of. -/
theorem evalNode_call_congr {ctx : Context} {self other : Expression → Except Fault Value}
    {function : String} {args : List Expression}
    (h : ∀ part ∈ (call function args).parts, self part = other part) :
    evalNode ctx self (.call function args) = evalNode ctx other (.call function args) := by
  have hargs : args.mapM self = args.mapM other :=
    mapM_congr_mem fun arg harg => h arg (mem_parts_of_mem_children harg)
  rw [evalNode.eq_def, evalNode.eq_def]
  dsimp only
  rw [hargs]
  split
  · split
    · rename_i target name
      have htarget : target ∈ (call function [.member target name]).parts :=
        List.mem_flatMap.mpr ⟨_, List.mem_cons_self, List.mem_append_left _ (by
          rw [nodes_eq]
          exact List.mem_append_right _ List.mem_cons_self)⟩
      rw [h target htarget]
    · rfl
  · rfl

theorem traverses_eval (ctx : Context) : Traverses (evalNode ctx) (eval ctx) where
  unfolds e := by
    cases e with
    | list elements => rw [eval, evalNode, evalList_eq_mapM]
    | map entries => rw [eval, evalNode, evalEntries_eq_foldlM]
    | call function args =>
        rw [eval.eq_def]
        dsimp only
        rw [evalList_eq_mapM]
        rfl
    | method receiver function args => rw [eval, evalNode, evalList_eq_mapM]
    | _ => rfl
  descends e self other h := by
    have hchildren : ∀ child ∈ e.children, self child = other child :=
      fun child hchild => h child (mem_parts_of_mem_children hchild)
    cases e with
    | literal value => rfl
    | ident name => rfl
    | list elements =>
        have helements : ∀ e ∈ elements, self e = other e := hchildren
        rw [evalNode, evalNode, mapM_congr_mem helements]
    | map entries => rw [evalNode, evalNode, foldlM_putEvaluated_congr entries hchildren]
    | call function args => exact evalNode_call_congr h
    | method receiver function args =>
        simp only [children, List.forall_mem_cons] at hchildren
        rw [evalNode, evalNode, hchildren.1, mapM_congr_mem hchildren.2]
    | _ =>
        simp only [children, List.forall_mem_cons] at hchildren
        simp only [evalNode, hchildren]

/-! ## Depth, by search and by recursion -/

/-- **The depth that the search finds is the depth by recursion**, and bounds every recursion
over the tree.  Whatever the order in which pending nodes are taken, the search cannot go on for
ever, stops only when no node is pending, and has then found the depth.  All nodes below the
root are less deep; evaluating, walking and rebuilding ask only for them, and so go down no more
levels than the tree is deep. -/
theorem depth_structural (e : Expression) :
    e.depth = (e.children.map depth).foldr max 0 + 1 ∧
    (WellFounded (fun s' s => Search.Turn s s') ∧
      ∀ s, Relation.ReflTransGen Search.Turn ⟨0, [(e, 1)]⟩ s →
        (s.pending ≠ [] → ∃ s', Search.Turn s s') ∧ (s.pending = [] → s.deepest = e.depth)) ∧
    (∀ part ∈ e.parts, part.depth < e.depth) ∧
    (∀ ctx : Context, Traverses (evalNode ctx) (eval ctx) ∧
      ∀ cut levels, e.depth ≤ levels → within (evalNode ctx) cut levels e = e.eval ctx) ∧
    (Traverses walkNode nodes ∧
      ∀ cut levels, e.depth ≤ levels → within walkNode cut levels e = e.nodes) ∧
    ∀ {m : Type → Type} [Monad m] [LawfulMonad m] (f : Expression → m Expression),
      Traverses (rebuildNode f) (rebuild f) ∧
      ∀ cut levels, e.depth ≤ levels → within (rebuildNode f) cut levels e = e.rebuild f := by
  refine ⟨depth_eq_children e, ⟨Search.turn_wellFounded, fun s hs => ?_⟩,
    fun part => depth_lt_of_mem_parts, fun ctx => ?_, ?_, fun f => ?_⟩
  · exact ⟨Search.exists_turn, Search.deepest_of_turns hs⟩
  · exact ⟨traverses_eval ctx, fun cut _ => (traverses_eval ctx).within_eq cut⟩
  · exact ⟨traverses_walk, fun cut _ => traverses_walk.within_eq cut⟩
  · exact ⟨traverses_rebuild f, fun cut _ => (traverses_rebuild f).within_eq cut⟩

/-- A guard with its comparison: evaluating it goes down four levels, the argument of `has`
included. -/
theorem depth_structural_guard :
    ∃ e : Expression,
      e = .and (.call "has" [.member (.ident "params") "x"])
        (.relation .greater (.member (.ident "params") "x") (.literal (.int 1))) ∧
      e.depth = 4 ∧ (e.children.map depth).foldr max 0 + 1 = 4 ∧
      (∃ s, Search.Turn ⟨0, [(e, 1)]⟩ s) ∧
      (∀ (ctx : Context) cut, within (evalNode ctx) cut 4 e = e.eval ctx) ∧
      (∀ cut, within walkNode cut 4 e = e.nodes) ∧
      ∀ (f : Expression → Id Expression) cut, within (rebuildNode f) cut 4 e = e.rebuild f := by
  obtain ⟨hchildren, ⟨-, hsearch⟩, -, heval, hwalk, hrebuild⟩ := depth_structural
    (.and (.call "has" [.member (.ident "params") "x"])
      (.relation .greater (.member (.ident "params") "x") (.literal (.int 1))))
  have hdepth : depth (.and (.call "has" [.member (.ident "params") "x"])
      (.relation .greater (.member (.ident "params") "x") (.literal (.int 1)))) = 4 := by
    rw [depth_eq_height]
    rfl
  refine ⟨_, rfl, hdepth, hchildren.symm.trans hdepth, ?_, fun ctx cut => ?_, fun cut => ?_,
    fun f cut => ?_⟩
  · exact (hsearch _ .refl).1 (List.cons_ne_nil _ _)
  · exact (heval ctx).2 cut 4 (Nat.le_of_eq hdepth)
  · exact hwalk.2 cut 4 (Nat.le_of_eq hdepth)
  · exact (hrebuild f).2 cut 4 (Nat.le_of_eq hdepth)

end Expression
end Placement
