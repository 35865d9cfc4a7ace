import Placement.Expression
/-! # Walking and rebuilding trees

Both walks go bottom up, children before their parent and from left to right:
`Expression.nodes` lists the nodes, `Expression.rebuild` replaces every node by
what a function makes of it, once its children have been replaced.
-/
namespace Placement
namespace Expression

mutual

/-- The nodes of a tree, children before their parent. -/
def nodes : Expression → List Expression
  | .literal value => [.literal value]
  | .ident name => [.ident name]
  | .list elements => nodesOfList elements ++ [.list elements]
  | .map entries => nodesOfEntries entries ++ [.map entries]
  | .member target name => nodes target ++ [.member target name]
  | .index target position => nodes target ++ nodes position ++ [.index target position]
  | .call function args => nodesOfList args ++ [.call function args]
  | .method receiver function args =>
      nodes receiver ++ nodesOfList args ++ [.method receiver function args]
  | .unary op operand => nodes operand ++ [.unary op operand]
  | .arithmetic op left right => nodes left ++ nodes right ++ [.arithmetic op left right]
  | .relation op left right => nodes left ++ nodes right ++ [.relation op left right]
  | .and left right => nodes left ++ nodes right ++ [.and left right]
  | .or left right => nodes left ++ nodes right ++ [.or left right]
  | .conditional condition yes no =>
      nodes condition ++ nodes yes ++ nodes no ++ [.conditional condition yes no]

def nodesOfList : List Expression → List Expression
  | [] => []
  | e :: rest => nodes e ++ nodesOfList rest

def nodesOfEntries : List (Expression × Expression) → List Expression
  | [] => []
  | (key, value) :: rest => nodes key ++ nodes value ++ nodesOfEntries rest

end

theorem nodesOfList_eq_flatMap (es : List Expression) : nodesOfList es = es.flatMap nodes := by
  induction es with
  | nil => rfl
  | cons e rest ih => simp [nodesOfList, ih]

theorem nodesOfEntries_eq_flatMap (entries : List (Expression × Expression)) :
    nodesOfEntries entries = (entries.flatMap fun (key, value) => [key, value]).flatMap nodes := by
  induction entries with
  | nil => rfl
  | cons entry rest ih =>
      obtain ⟨key, value⟩ := entry
      simp [nodesOfEntries, ih]

/-- The nodes of a tree are those of its children, and the root last. -/
theorem nodes_eq (e : Expression) : e.nodes = e.children.flatMap nodes ++ [e] := by
  cases e <;>
    simp [nodes, children, nodesOfList_eq_flatMap, nodesOfEntries_eq_flatMap]

theorem size_lt_of_mem_children {e child : Expression} (h : child ∈ e.children) :
    child.size < e.size := by
  have hle : ∀ es : List Expression, child ∈ es → child.size ≤ sizeList es := by
    intro es
    induction es with
    | nil => nofun
    | cons first rest ih =>
        intro hmem
        rw [sizeList]
        rcases List.mem_cons.mp hmem with rfl | hmem
        · exact Nat.le_add_right _ _
        · exact Nat.le_trans (ih hmem) (Nat.le_add_left _ _)
  rw [size_eq_sizeList_children e]
  exact Nat.lt_succ_of_le (hle _ h)

/-- **What a tree has whenever its children have it, all trees have.** -/
@[elab_as_elim]
theorem induction_on_children {motive : Expression → Prop} (e : Expression)
    (h : ∀ e, (∀ child ∈ e.children, motive child) → motive e) : motive e :=
  h e fun child _ => induction_on_children child h
termination_by e.size
decreasing_by exact size_lt_of_mem_children ‹_›

section
variable {m : Type → Type} [Monad m] (f : Expression → m Expression)

mutual

/-- Replace every node by what `f` makes of it, children first. -/
def rebuild : Expression → m Expression
  | .literal value => f (.literal value)
  | .ident name => f (.ident name)
  | .list elements => do
      let elements ← rebuildList elements
      f (.list elements)
  | .map entries => do
      let entries ← rebuildEntries entries
      f (.map entries)
  | .member target name => do
      let target ← rebuild target
      f (.member target name)
  | .index target position => do
      let target ← rebuild target
      let position ← rebuild position
      f (.index target position)
  | .call function args => do
      let args ← rebuildList args
      f (.call function args)
  | .method receiver function args => do
      let receiver ← rebuild receiver
      let args ← rebuildList args
      f (.method receiver function args)
  | .unary op operand => do
      let operand ← rebuild operand
      f (.unary op operand)
  | .arithmetic op left right => do
      let left ← rebuild left
      let right ← rebuild right
      f (.arithmetic op left right)
  | .relation op left right => do
      let left ← rebuild left
      let right ← rebuild right
      f (.relation op left right)
  | .and left right => do
      let left ← rebuild left
      let right ← rebuild right
      f (.and left right)
  | .or left right => do
      let left ← rebuild left
      let right ← rebuild right
      f (.or left right)
  | .conditional condition yes no => do
      let condition ← rebuild condition
      let yes ← rebuild yes
      let no ← rebuild no
      f (.conditional condition yes no)

def rebuildList : List Expression → m (List Expression)
  | [] => pure []
  | e :: rest => do
      let e ← rebuild e
      let rest ← rebuildList rest
      pure (e :: rest)

def rebuildEntries : List (Expression × Expression) → m (List (Expression × Expression))
  | [] => pure []
  | (key, value) :: rest => do
      let key ← rebuild key
      let value ← rebuild value
      let rest ← rebuildEntries rest
      pure ((key, value) :: rest)

end

end

section
variable {m : Type → Type} [Monad m] [LawfulMonad m] {f : Expression → m Expression}

mutual

/-- A tree of nodes that stay stays. -/
theorem rebuild_eq_self : ∀ e : Expression, (∀ node ∈ e.nodes, f node = pure node) →
    e.rebuild f = pure e
  | .literal _, h | .ident _, h => h _ List.mem_cons_self
  | .list elements, h => by
      rw [nodes, List.forall_mem_append] at h
      rw [rebuild, rebuildList_eq_self elements h.1, pure_bind]
      exact h.2 _ List.mem_cons_self
  | .map entries, h => by
      rw [nodes, List.forall_mem_append] at h
      rw [rebuild, rebuildEntries_eq_self entries h.1, pure_bind]
      exact h.2 _ List.mem_cons_self
  | .member target name, h => by
      rw [nodes, List.forall_mem_append] at h
      rw [rebuild, rebuild_eq_self target h.1, pure_bind]
      exact h.2 _ List.mem_cons_self
  | .index target position, h => by
      rw [nodes, List.forall_mem_append, List.forall_mem_append] at h
      rw [rebuild, rebuild_eq_self target h.1.1, pure_bind, rebuild_eq_self position h.1.2,
        pure_bind]
      exact h.2 _ List.mem_cons_self
  | .call function args, h => by
      rw [nodes, List.forall_mem_append] at h
      rw [rebuild, rebuildList_eq_self args h.1, pure_bind]
      exact h.2 _ List.mem_cons_self
  | .method receiver function args, h => by
      rw [nodes, List.forall_mem_append, List.forall_mem_append] at h
      rw [rebuild, rebuild_eq_self receiver h.1.1, pure_bind, rebuildList_eq_self args h.1.2,
        pure_bind]
      exact h.2 _ List.mem_cons_self
  | .unary op operand, h => by
      rw [nodes, List.forall_mem_append] at h
      rw [rebuild, rebuild_eq_self operand h.1, pure_bind]
      exact h.2 _ List.mem_cons_self
  | .arithmetic op left right, h | .relation op left right, h | .and left right, h
  | .or left right, h => by
      rw [nodes, List.forall_mem_append, List.forall_mem_append] at h
      rw [rebuild, rebuild_eq_self left h.1.1, pure_bind, rebuild_eq_self right h.1.2, pure_bind]
      exact h.2 _ List.mem_cons_self
  | .conditional condition yes no, h => by
      rw [nodes, List.forall_mem_append, List.forall_mem_append, List.forall_mem_append] at h
      rw [rebuild, rebuild_eq_self condition h.1.1.1, pure_bind, rebuild_eq_self yes h.1.1.2,
        pure_bind, rebuild_eq_self no h.1.2, pure_bind]
      exact h.2 _ List.mem_cons_self

theorem rebuildList_eq_self : ∀ es : List Expression,
    (∀ node ∈ nodesOfList es, f node = pure node) → rebuildList f es = pure es
  | [], _ => rfl
  | e :: rest, h => by
      rw [nodesOfList, List.forall_mem_append] at h
      rw [rebuildList, rebuild_eq_self e h.1, pure_bind, rebuildList_eq_self rest h.2, pure_bind]

theorem rebuildEntries_eq_self : ∀ entries : List (Expression × Expression),
    (∀ node ∈ nodesOfEntries entries, f node = pure node) →
      rebuildEntries f entries = pure entries
  | [], _ => rfl
  | (key, value) :: rest, h => by
      rw [nodesOfEntries, List.forall_mem_append, List.forall_mem_append] at h
      rw [rebuildEntries, rebuild_eq_self key h.1.1, pure_bind, rebuild_eq_self value h.1.2,
        pure_bind, rebuildEntries_eq_self rest h.2, pure_bind]

end
end

end Expression
end Placement
