import Placement.Expression.Evaluation
import Placement.Expression.Traversal
/-! # Whole numbers

A tree of whole numbers, minus signs and arithmetic has an exact value, unless a divisor in it
is zero.  **Evaluation gives the exact value or a fault, and never anything else**: a fault
exactly if some operation fails, and then that of the first one that does, operands before
operators and from left to right (`Expression.eval_integral`).
-/
namespace Placement

/-- A number is given exactly, or is a fault because 64 bits cannot hold it. -/
theorem exactly_spec (z : Int) :
    (∃ n : Int64, exactly z = .ok (.int n) ∧ n.toInt = z) ∨
    exactly z = .error (.arithmetic .overflow) ∧ ∀ n : Int64, n.toInt ≠ z := by
  rw [exactly, Value.int64?]
  by_cases hfits : -0x8000000000000000 ≤ z ∧ z < 0x8000000000000000
  · rw [if_pos hfits]
    exact .inl ⟨Int64.ofInt z, rfl, Int64.toInt_ofInt_of_le hfits.1 hfits.2⟩
  · rw [if_neg hfits]
    refine .inr ⟨rfl, ?_⟩
    rintro n rfl
    exact hfits ⟨n.le_toInt, n.toInt_lt⟩

/-! ## One operation -/

namespace Arithmetic

/-- The exact result of an operation.  A quotient is truncated toward zero, and a remainder has
the sign of the dividend. -/
def exactResult? (op : Arithmetic) (x y : Int) : Option Int :=
  match op with
  | .add => some (x + y)
  | .subtract => some (x - y)
  | .multiply => some (x * y)
  | .divide => if y = 0 then none else some (x.tdiv y)
  | .modulo => if y = 0 then none else some (x.tmod y)

/-- **How an operation on whole numbers fails.**  The remainder of the least number by `-1`
would be `0`, but its quotient is out of range. -/
inductive Fails : Arithmetic → Int → Int → ArithmeticFault → Prop
  | outOfRange {op : Arithmetic} {x y z : Int} : op.exactResult? x y = some z →
      (∀ n : Int64, n.toInt ≠ z) → Fails op x y .overflow
  | quotientByZero {x : Int} : Fails .divide x 0 .divisionByZero
  | remainderByZero {x : Int} : Fails .modulo x 0 .modulusByZero
  | leastByMinusOne : Fails .modulo (-0x8000000000000000) (-1) .overflow

variable {op : Arithmetic} {x y z : Int} {cause other : ArithmeticFault} {a b : Int64}

/-- An operation fails in one way only. -/
theorem Fails.unique (h : op.Fails x y cause) (h' : op.Fails x y other) : cause = other := by
  cases h <;> cases h' <;> first | rfl | simp_all [exactResult?]

/-- Where the result exists, it is out of range, but for one remainder. -/
theorem Fails.not_in_range (h : op.Fails x y cause) (hexact : op.exactResult? x y = some z)
    (hother : ¬(op = .modulo ∧ x = -0x8000000000000000 ∧ y = -1)) (n : Int64) : n.toInt ≠ z := by
  cases h with
  | outOfRange hexact' hrange =>
      rw [hexact] at hexact'
      cases hexact'
      exact hrange n
  | quotientByZero => cases hexact
  | remainderByZero => cases hexact
  | leastByMinusOne => exact absurd ⟨rfl, rfl, rfl⟩ hother

/-- The outcome of an operation on two whole numbers. -/
def Outcome (op : Arithmetic) (a b : Int64) : Prop :=
  (∃ n : Int64, op.onInts a b = .ok (.int n) ∧ op.exactResult? a.toInt b.toInt = some n.toInt ∧
    ∀ cause, ¬op.Fails a.toInt b.toInt cause) ∨
  ∃ cause, op.onInts a b = .error (.arithmetic cause) ∧ op.Fails a.toInt b.toInt cause

/-- The outcome where the result exists and is looked up in the range. -/
theorem outcome_of_exactly (honInts : op.onInts a b = exactly z)
    (hexact : op.exactResult? a.toInt b.toInt = some z)
    (hother : ¬(op = .modulo ∧ a.toInt = -0x8000000000000000 ∧ b.toInt = -1)) : op.Outcome a b := by
  rcases exactly_spec z with ⟨n, hn, rfl⟩ | ⟨hoverflow, hrange⟩
  · exact .inl ⟨n, honInts.trans hn, hexact, fun cause h => h.not_in_range hexact hother n rfl⟩
  · exact .inr ⟨.overflow, honInts.trans hoverflow, .outOfRange hexact hrange⟩

/-- **An operation gives the exact result, unless it fails.** -/
theorem outcome (op : Arithmetic) (a b : Int64) : op.Outcome a b := by
  cases op with
  | add => exact outcome_of_exactly rfl rfl nofun
  | subtract => exact outcome_of_exactly rfl rfl nofun
  | multiply => exact outcome_of_exactly rfl rfl nofun
  | divide =>
      by_cases hb : b = 0
      · subst hb
        exact .inr ⟨.divisionByZero, rfl, .quotientByZero⟩
      · have hb' : b.toInt ≠ 0 := fun h => hb (Int64.toInt_inj.mp h)
        exact outcome_of_exactly (if_neg hb) (if_neg hb') nofun
  | modulo =>
      by_cases hb : b = 0
      · subst hb
        exact .inr ⟨.modulusByZero, rfl, .remainderByZero⟩
      by_cases hleast : a = Int64.minValue ∧ b = -1
      · obtain ⟨rfl, rfl⟩ := hleast
        exact .inr ⟨.overflow, rfl, .leastByMinusOne⟩
      · have hb' : b.toInt ≠ 0 := fun h => hb (Int64.toInt_inj.mp h)
        refine outcome_of_exactly ((if_neg hb).trans (if_neg hleast)) (if_neg hb') ?_
        rintro ⟨-, ha, hone⟩
        exact hleast ⟨Int64.toInt_inj.mp ha, Int64.toInt_inj.mp hone⟩

end Arithmetic

/-! ## A tree of operations -/

namespace Expression

/-- Whole numbers, minus signs and arithmetic, and nothing else. -/
inductive Integral : Expression → Prop
  | number (n : Int64) : Integral (.literal (.int n))
  | negation {operand : Expression} : Integral operand → Integral (.unary .negate operand)
  | operation (op : Arithmetic) {left right : Expression} : Integral left → Integral right →
      Integral (.arithmetic op left right)

/-- The exact value of a tree of whole numbers; none if a divisor in it is zero. -/
def exactValue? : Expression → Option Int
  | .literal (.int n) => some n.toInt
  | .unary .negate operand => (exactValue? operand).map fun x => -x
  | .arithmetic op left right => do
      let x ← exactValue? left
      let y ← exactValue? right
      op.exactResult? x y
  | _ => none

/-- **The root of the tree fails** on the exact values of its operands. -/
inductive Fails : Expression → ArithmeticFault → Prop
  | negation {operand : Expression} {x : Int} : operand.exactValue? = some x →
      (∀ n : Int64, n.toInt ≠ -x) → Fails (.unary .negate operand) .overflow
  | operation {op : Arithmetic} {left right : Expression} {x y : Int} {cause : ArithmeticFault} :
      left.exactValue? = some x → right.exactValue? = some y → op.Fails x y cause →
      Fails (.arithmetic op left right) cause

/-- The node has an exact value that 64 bits hold, and does not fail. -/
def Exact (node : Expression) : Prop :=
  (∃ k : Int64, node.exactValue? = some k.toInt) ∧ ∀ cause, ¬node.Fails cause

/-- Some of the nodes fail, and the first of them for this cause. -/
inductive FirstFails : List Expression → ArithmeticFault → Prop
  | here {node : Expression} {rest : List Expression} {cause : ArithmeticFault} :
      node.Fails cause → FirstFails (node :: rest) cause
  | later {node : Expression} {rest : List Expression} {cause : ArithmeticFault} :
      (∀ other, ¬node.Fails other) → FirstFails rest cause → FirstFails (node :: rest) cause

variable {e : Expression} {nodes before after : List Expression} {cause other : ArithmeticFault}

theorem Fails.unique (h : e.Fails cause) (h' : e.Fails other) : cause = other := by
  cases h with
  | negation _ _ =>
      cases h' with
      | negation _ _ => rfl
  | operation hleft hright hop =>
      cases h' with
      | operation hleft' hright' hop' =>
          rw [hleft] at hleft'
          rw [hright] at hright'
          cases hleft'
          cases hright'
          exact hop.unique hop'

theorem FirstFails.unique (h : FirstFails nodes cause) (h' : FirstFails nodes other) :
    cause = other := by
  induction h with
  | here hnode =>
      cases h' with
      | here hnode' => exact hnode.unique hnode'
      | later hnone _ => exact absurd hnode (hnone _)
  | later hnone _ ih =>
      cases h' with
      | here hnode' => exact absurd hnode' (hnone _)
      | later _ hrest => exact ih hrest

theorem FirstFails.append_left (h : FirstFails before cause) :
    FirstFails (before ++ after) cause := by
  induction h with
  | here hnode => exact .here hnode
  | later hnone _ ih => exact .later hnone ih

theorem FirstFails.append_right (hbefore : ∀ node ∈ before, node.Exact)
    (h : FirstFails after cause) : FirstFails (before ++ after) cause := by
  induction before with
  | nil => exact h
  | cons node rest ih =>
      rw [List.forall_mem_cons] at hbefore
      exact .later hbefore.1.2 (ih hbefore.2)

theorem FirstFails.not_exact (h : FirstFails nodes cause) : ¬∀ node ∈ nodes, node.Exact := by
  intro hexact
  induction h with
  | here hnode => exact (hexact _ List.mem_cons_self).2 _ hnode
  | later _ _ ih => exact ih fun node hmem => hexact node (List.mem_cons_of_mem _ hmem)

/-- Either all nodes are exact and the value is the exact one, or the first failure decides. -/
def Settles (e : Expression) (ctx : Context) : Prop :=
  (∃ n : Int64, e.eval ctx = .ok (.int n) ∧ e.exactValue? = some n.toInt ∧
    ∀ node ∈ e.nodes, node.Exact) ∨
  ∃ cause, e.eval ctx = .error (.arithmetic cause) ∧ FirstFails e.nodes cause

variable {ctx : Context} {operand left right : Expression}

theorem settles_negation (h : operand.Settles ctx) :
    (Expression.unary .negate operand).Settles ctx := by
  rw [Settles, eval, nodes]
  rcases h with ⟨n, heval, hexact, hnodes⟩ | ⟨cause, heval, hfails⟩
  · rw [heval]
    have hvalue : (Expression.unary .negate operand).exactValue? = some (-n.toInt) := by
      rw [exactValue?, hexact, Option.map_some]
    rcases exactly_spec (-n.toInt) with ⟨m, hm, hmn⟩ | ⟨hoverflow, hrange⟩
    · rw [← hmn] at hvalue
      refine .inl ⟨m, hm, hvalue, ?_⟩
      rw [List.forall_mem_append, List.forall_mem_singleton]
      refine ⟨hnodes, ⟨m, hvalue⟩, ?_⟩
      rintro cause (⟨hoperand, hrange⟩ | _)
      rw [hexact] at hoperand
      cases hoperand
      exact hrange m hmn
    · exact .inr ⟨.overflow, hoverflow, .append_right hnodes (.here (.negation hexact hrange))⟩
  · rw [heval]
    exact .inr ⟨cause, rfl, hfails.append_left⟩

theorem settles_operation (op : Arithmetic) (hleft : left.Settles ctx)
    (hright : right.Settles ctx) : (Expression.arithmetic op left right).Settles ctx := by
  rw [Settles, eval, nodes]
  rcases hleft with ⟨a, hleft, hexactleft, hnodesleft⟩ | ⟨cause, hleft, hfails⟩
  · rcases hright with ⟨b, hright, hexactright, hnodesright⟩ | ⟨cause, hright, hfails⟩
    · rw [hleft, hright]
      have hnodes : ∀ node ∈ left.nodes ++ right.nodes, node.Exact :=
        List.forall_mem_append.mpr ⟨hnodesleft, hnodesright⟩
      have hvalue : (Expression.arithmetic op left right).exactValue? =
          op.exactResult? a.toInt b.toInt := by
        rw [exactValue?, hexactleft, hexactright]
        rfl
      rcases op.outcome a b with ⟨n, hn, hexact, hnone⟩ | ⟨cause, hcause, hfails⟩
      · rw [hexact] at hvalue
        refine .inl ⟨n, hn, hvalue, ?_⟩
        rw [List.forall_mem_append, List.forall_mem_singleton]
        refine ⟨hnodes, ⟨n, hvalue⟩, ?_⟩
        rintro cause (_ | ⟨hx, hy, hfails⟩)
        rw [hexactleft] at hx
        rw [hexactright] at hy
        cases hx
        cases hy
        exact hnone cause hfails
      · exact .inr ⟨cause, hcause,
          .append_right hnodes (.here (.operation hexactleft hexactright hfails))⟩
    · rw [hleft, hright]
      exact .inr ⟨cause, rfl, .append_left (.append_right hnodesleft hfails)⟩
  · rw [hleft]
    exact .inr ⟨cause, rfl, hfails.append_left.append_left⟩

theorem Integral.settles (h : Integral e) (ctx : Context) : e.Settles ctx := by
  induction h with
  | number n =>
      refine .inl ⟨n, rfl, rfl, ?_⟩
      rw [nodes, List.forall_mem_singleton]
      exact ⟨⟨n, rfl⟩, nofun⟩
  | negation _ ih => exact settles_negation ih
  | operation op _ _ ihleft ihright => exact settles_operation op ihleft ihright

/-- **Arithmetic on whole numbers is exact.**  A value is the exact value of the tree, and that
of each node is in range.  A fault is that of the first node that fails, and there is one
whenever some node fails. -/
theorem eval_integral (h : Integral e) (ctx : Context) :
    (∀ v, e.eval ctx = .ok v →
      ∃ n : Int64, v = .int n ∧ e.exactValue? = some n.toInt ∧
        ∀ node ∈ e.nodes, ∃ k : Int64, node.exactValue? = some k.toInt) ∧
    ∀ fault, e.eval ctx = .error fault ↔
      ∃ cause, fault = .arithmetic cause ∧ FirstFails e.nodes cause := by
  rcases h.settles ctx with ⟨n, heval, hexact, hnodes⟩ | ⟨cause, heval, hfails⟩
  · rw [heval]
    refine ⟨?_, fun fault => ⟨nofun, ?_⟩⟩
    · rintro v ⟨⟩
      exact ⟨n, rfl, hexact, fun node hmem => (hnodes node hmem).1⟩
    · rintro ⟨cause, -, hfails⟩
      exact absurd hnodes hfails.not_exact
  · rw [heval]
    refine ⟨nofun, fun fault => ⟨?_, ?_⟩⟩
    · rintro ⟨⟩
      exact ⟨cause, rfl, hfails⟩
    · rintro ⟨other, rfl, hother⟩
      rw [hfails.unique hother]

/-- `-7 / 2` has a value; of `5 % -1 - (least % -1) / 0` the remainder fails before the quotient
is looked at. -/
theorem truncated_and_out_of_range :
    let number (n : Int64) : Expression := .literal (.int n)
    let quotient : Expression := .arithmetic .divide (number (-7)) (number 2)
    let remainder (n : Int64) : Expression := .arithmetic .modulo (number n) (number (-1))
    let difference : Expression := .arithmetic .subtract (remainder 5)
      (.arithmetic .divide (remainder Int64.minValue) (number 0))
    (quotient.eval .empty = .ok (.int (-3)) ∧ quotient.exactValue? = some (-3)) ∧
      difference.eval .empty = .error (.arithmetic .overflow) := by
  intro number quotient remainder difference
  have hquotient : Integral quotient := .operation .divide (.number (-7)) (.number 2)
  have hremainder (n : Int64) : Integral (remainder n) :=
    .operation .modulo (.number n) (.number (-1))
  have hdifference : Integral difference :=
    .operation .subtract (hremainder 5)
      (.operation .divide (hremainder Int64.minValue) (.number 0))
  have hvalue : quotient.eval .empty = .ok (.int (-3)) := rfl
  have hfive : (remainder 5).eval .empty = .ok (.int 0) := rfl
  obtain ⟨n, hn, hexact, -⟩ := (eval_integral hquotient .empty).1 _ hvalue
  cases hn
  have hleast : FirstFails (remainder Int64.minValue).nodes .overflow :=
    .later nofun (.later nofun (.here (.operation rfl rfl .leastByMinusOne)))
  have hfirst : FirstFails difference.nodes .overflow := by
    rcases (hremainder 5).settles .empty with ⟨-, -, -, hnodes⟩ | ⟨_, hfault, -⟩
    · exact .append_left (.append_right hnodes hleast.append_left.append_left)
    · rw [hfive] at hfault
      cases hfault
  exact ⟨⟨hvalue, hexact⟩, ((eval_integral hdifference .empty).2 _).mpr ⟨.overflow, rfl, hfirst⟩⟩

end Expression
end Placement
