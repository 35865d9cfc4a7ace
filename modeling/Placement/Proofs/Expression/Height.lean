import Placement.Proofs.Expression.Grammar
/-! # The height of what is read

`Expression.depth` visits the nodes of a tree from a list; it finds the height of the tree
(`depth_eq_height`).

The height of an expression that tokens stand for is **bounded by its nesting, but only by
its square**: each link of a chain takes one more level of nesting for itself, and lifts all
that stands before it.
-/
namespace Placement.Expression

/-! ## Depth and height -/

theorem heightEntries_eq_heightList (entries : List (Expression × Expression)) :
    heightEntries entries = heightList (entries.flatMap fun (key, value) => [key, value]) := by
  induction entries with
  | nil => rfl
  | cons entry rest ih =>
      obtain ⟨key, value⟩ := entry
      simp [heightEntries, heightList, ih, Nat.max_assoc]

/-- A tree is one level higher than its highest child. -/
theorem height_eq_heightList_children (e : Expression) :
    e.height = heightList e.children + 1 := by
  cases e <;> simp [height, children, heightList, heightEntries_eq_heightList]

/-- The deepest level of some trees, each with the level of its root. -/
def reach : List (Expression × Nat) → Nat
  | [] => 0
  | (e, level) :: rest => max (level + heightList e.children) (reach rest)

theorem reach_append (left right : List (Expression × Nat)) :
    reach (left ++ right) = max (reach left) (reach right) := by
  induction left with
  | nil => simp [reach]
  | cons pair rest ih => simp [reach, ih, Nat.max_assoc]

theorem max_reach_level (level : Nat) (trees : List Expression) :
    max level (reach (trees.map (·, level + 1))) = level + heightList trees := by
  induction trees with
  | nil => simp [reach, heightList]
  | cons e rest ih =>
      have hheight := height_eq_heightList_children e
      simp only [List.map_cons, reach, heightList]
      omega

theorem depthFrom_eq (deepest : Nat) (pending : List (Expression × Nat)) :
    depthFrom deepest pending = max deepest (reach pending) := by
  induction deepest, pending using depthFrom.induct with
  | case1 deepest => rw [depthFrom, reach, Nat.max_zero]
  | case2 deepest e level rest ih =>
      have hlevel := max_reach_level level e.children
      rw [depthFrom, ih, reach_append, reach]
      omega

/-- **The depth of a tree is its height.** -/
theorem depth_eq_height (e : Expression) : e.depth = e.height := by
  have hheight := height_eq_heightList_children e
  rw [depth, depthFrom_eq]
  simp only [reach]
  omega

/-! ## Height and nesting -/

theorem height_negated_le (e : Expression) : (negated e).height ≤ e.height + 1 := by
  rw [negated.eq_def]
  split
  · split
    · exact Nat.le_refl _
    · exact Nat.le_succ _
  · exact Nat.le_succ _
  · exact Nat.le_refl _

/-- How high an expression of a form can be that nests so deep. -/
def HeightFits : Form → Nat → Expression → Prop
  | .expression, n, e => e.height + n ≤ 3 * (n * n)
  | .chain level k, n, e => e.height ≤ 3 * (n * n) + 1 + (6 - level.rank) * n + k
  | .operand level, n, e => e.height ≤ 3 * (n * n) + 1 + (6 - level.rank) * n
  | .unary, n, e => e.height ≤ 3 * (n * n) + 1
  | .steps k, n, e => e.height + n ≤ 3 * (n * n) + 1 + k
  | .primary, n, e => e.height + n ≤ 3 * (n * n) + 1
  | .items _, n, e => e.height + n ≤ 3 * (n * n) + 1
  | .entries, n, e => e.height + n ≤ 3 * (n * n) + 1

/-- The bound only grows with the nesting. -/
theorem add_le_of_nests {x a m n : Nat} (h : x + m ≤ 3 * (m * m) + a) (hmn : m ≤ n) :
    x + n ≤ 3 * (n * n) + a := by
  obtain ⟨j, rfl⟩ := Nat.exists_eq_add_of_le hmn
  have hsquare : (m + j) * (m + j) = m * m + 2 * (m * j) + j * j := by
    rw [Nat.add_mul, Nat.mul_add, Nat.mul_add, Nat.mul_comm j m]
    omega
  have hj := Nat.le_mul_self j
  omega

theorem square_succ (n : Nat) : (n + 1) * (n + 1) = n * n + 2 * n + 1 := by
  rw [Nat.add_mul, Nat.mul_add]
  omega

theorem heightFits_of_derives {form : Form} {n : Nat} {ts : List Token} {e : Expression}
    (h : Derives negated form n ts e) : HeightFits form n e := by
  induction h with
  | @bare k n ts e h ih =>
      have hk := h.links_le.1
      have hsquare := square_succ n
      simp only [HeightFits, Level.rank, Derives.links] at ih hk ⊢
      omega
  | @conditional k n y z cs ys zs condition yes no h _ _ ih ihyes ihno =>
      have hk := h.links_le.1
      simp only [HeightFits, Level.rank, Derives.links, height] at ih ihyes ihno hk ⊢
      generalize hmax : max n (max y z) = m
      have hn : n ≤ m := by omega
      have hsquare := square_succ m
      have hnm := Nat.mul_le_mul hn hn
      have hyes := add_le_of_nests (a := 0) ihyes (show y ≤ m by omega)
      have hno := add_le_of_nests (a := 0) ihno (show z ≤ m by omega)
      omega
  | first _ ih => exact ih
  | @link level k n m ls rs left right t join h hjoin _ ih ihright =>
      have hjoined : (join left right).height = max left.height right.height + 1 := by
        cases level <;> cases t <;> cases hjoin <;> rfl
      -- The link lifts all that stands before it by one level, and that is what the number of
      -- links is counted for.
      simp only [HeightFits, hjoined] at ih ihright ⊢
      generalize hmax : max n (k + 1 + m) = l
      have hn : n ≤ l := by omega
      have hm : m ≤ l := by omega
      have hnl := Nat.mul_le_mul hn hn
      have hml := Nat.mul_le_mul hm hm
      have hnl' := Nat.mul_le_mul_left (6 - level.rank) hn
      have hml' := Nat.mul_le_mul_left (6 - level.rank) hm
      omega
  | @tighter level tighter k n ts e htighter h ih =>
      have hk := h.links_le.1
      simp only [HeightFits, Derives.links] at ih hk ⊢
      cases level <;> cases htighter <;> simp only [Level.rank] at ih ⊢ <;> omega
  | tightest htightest _ ih =>
      simp only [HeightFits, Level.rank_tightest htightest] at ih ⊢
      omega
  | @not n ts e _ ih =>
      have hsquare := square_succ n
      simp only [HeightFits, height] at ih ⊢
      omega
  | @minus n ts e _ ih =>
      have hsquare := square_succ n
      have hnegated := height_negated_le e
      simp only [HeightFits] at ih ⊢
      omega
  | member h ih =>
      have hk := h.links_le.1
      simp only [HeightFits, Derives.links] at ih hk ⊢
      omega
  | simple _ ih => exact ih
  | @select k n ts e name _ ih =>
      simp only [HeightFits, height] at ih ⊢
      have hn := add_le_of_nests (x := e.height) (a := 1 + k) (by omega) (Nat.le_max_left n (k + 1))
      omega
  | @method k n m ts us e args name _ _ ih ihargs =>
      simp only [HeightFits, height] at ih ihargs ⊢
      have hn := add_le_of_nests (x := e.height) (a := 1 + k) (by omega)
        (Nat.le_max_left n (k + 1 + m))
      have hm := add_le_of_nests (a := 1) ihargs (show m ≤ max n (k + 1 + m) by omega)
      omega
  | @index k n m ts us e position _ _ ih ihposition =>
      simp only [HeightFits, height] at ih ihposition ⊢
      have hn := add_le_of_nests (x := e.height) (a := 1 + k) (by omega)
        (Nat.le_max_left n (k + 1 + m))
      have hm := add_le_of_nests (a := 0) ihposition (show m ≤ max n (k + 1 + m) by omega)
      omega
  | null => exact Nat.le_refl _
  | bool => exact Nat.le_refl _
  | int => exact Nat.le_refl _
  | float => exact Nat.le_refl _
  | string => exact Nat.le_refl _
  | ident => exact Nat.le_refl _
  | call _ ih => exact ih
  | paren _ ih => exact Nat.le_succ_of_le ih
  | list _ ih => exact ih
  | map _ ih => exact ih
  | noItems => exact Nat.le_refl _
  | lastItem _ ih =>
      simp only [HeightFits, height, heightList] at ih ⊢
      omega
  | @moreItems close n m ts us e es _ _ ih ihrest =>
      simp only [HeightFits, height, heightList] at ih ihrest ⊢
      have hn := add_le_of_nests (a := 0) ih (Nat.le_max_left n m)
      have hm := add_le_of_nests (a := 1) ihrest (Nat.le_max_right n m)
      omega
  | noEntries => exact Nat.le_refl _
  | @lastEntry n m ks vs key value _ _ ih ihvalue =>
      simp only [HeightFits, height, heightEntries] at ih ihvalue ⊢
      have hn := add_le_of_nests (a := 0) ih (Nat.le_max_left n m)
      have hm := add_le_of_nests (a := 0) ihvalue (Nat.le_max_right n m)
      omega
  | @moreEntries n m l ks vs us key value pairs _ _ _ ih ihvalue ihrest =>
      simp only [HeightFits, height, heightEntries] at ih ihvalue ihrest ⊢
      generalize hmax : max n (max m l) = o
      have hn := add_le_of_nests (a := 0) ih (show n ≤ o by omega)
      have hm := add_le_of_nests (a := 0) ihvalue (show m ≤ o by omega)
      have hl := add_le_of_nests (a := 1) ihrest (show l ≤ o by omega)
      omega

/-- **The height of an expression is at most three times the square of its nesting.** -/
theorem height_le_of_derives {n : Nat} {ts : List Token} {e : Expression}
    (h : Derives negated .expression n ts e) : e.height + n ≤ 3 * (n * n) :=
  heightFits_of_derives h

end Placement.Expression
