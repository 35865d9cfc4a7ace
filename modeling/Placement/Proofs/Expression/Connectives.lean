import Placement.Proofs.Expression.Absorption
/-! # Chains of `&&` and of `||`

A false operand of `&&` decides it, a true operand of `||`.  A fault is absorbed wherever the
other operand decides, so joining is **associative, faults included** (`Connective.combine_assoc`):
how a chain is bracketed makes no difference at all.  The order of the operands makes none
either, but for which of several faults is reported
(`Connective.order_and_brackets_irrelevant`).
-/
namespace Placement

/-- `&&` or `||`. -/
inductive Connective
  | and | or
  deriving DecidableEq

namespace Connective
variable {ctx : Context} {c : Connective} {left right : Except Fault Bool}

/-- The expression that joins two operands. -/
def join : Connective → Expression → Expression → Expression
  | .and => .and
  | .or => .or

/-- The truth value of an operand that decides. -/
def decisive : Connective → Bool
  | .and => false
  | .or => true

/-- What comes of the operands. -/
def combine : Connective → Except Fault Bool → Except Fault Bool → Except Fault Bool
  | .and => conjunction
  | .or => disjunction

theorem evalBool_join (c : Connective) (left right : Expression) :
    (c.join left right).evalBool ctx = c.combine (left.evalBool ctx) (right.evalBool ctx) := by
  cases c <;> exact truth_map_bool _

theorem combine_eq_decisive_iff : c.combine left right = .ok c.decisive ↔
    left = .ok c.decisive ∨ right = .ok c.decisive := by
  cases c <;> rcases left with _ | _ | _ <;> rcases right with _ | _ | _ <;>
    simp [combine, conjunction, disjunction, decisive]

theorem combine_eq_not_decisive_iff : c.combine left right = .ok (!c.decisive) ↔
    left = .ok (!c.decisive) ∧ right = .ok (!c.decisive) := by
  cases c <;> rcases left with _ | _ | _ <;> rcases right with _ | _ | _ <;>
    simp [combine, conjunction, disjunction, decisive]

theorem combine_assoc (first second third : Except Fault Bool) :
    c.combine (c.combine first second) third = c.combine first (c.combine second third) := by
  cases c <;> rcases first with _ | _ | _ <;> rcases second with _ | _ | _ <;>
    rcases third with _ | _ | _ <;> rfl

/-- What comes of a chain of operands. -/
def verdict (c : Connective) (operands : List (Except Fault Bool)) : Except Fault Bool :=
  operands.foldr c.combine (.ok (!c.decisive))

theorem verdict_append (first second : List (Except Fault Bool)) :
    c.verdict (first ++ second) = c.combine (c.verdict first) (c.verdict second) := by
  induction first with
  | nil => cases c <;> rfl
  | cons operand rest ih =>
      show c.combine operand (c.verdict (rest ++ second)) = _
      rw [ih, ← combine_assoc]
      rfl

theorem verdict_singleton (operand : Except Fault Bool) : c.verdict [operand] = operand := by
  cases c <;> rcases operand with _ | _ | _ <;> rfl

/-- One operand that decides is enough. -/
theorem verdict_eq_decisive_iff {operands : List (Except Fault Bool)} :
    c.verdict operands = .ok c.decisive ↔ .ok c.decisive ∈ operands := by
  induction operands with
  | nil => cases c <;> simp [verdict, decisive]
  | cons operand rest ih =>
      show c.combine operand (c.verdict rest) = _ ↔ _
      rw [combine_eq_decisive_iff, ih, List.mem_cons, eq_comm]

/-- Otherwise all of them have to be truth values. -/
theorem verdict_eq_not_decisive_iff {operands : List (Except Fault Bool)} :
    c.verdict operands = .ok (!c.decisive) ↔ ∀ operand ∈ operands, operand = .ok (!c.decisive) := by
  induction operands with
  | nil => exact ⟨fun _ => nofun, fun _ => rfl⟩
  | cons operand rest ih =>
      show c.combine operand (c.verdict rest) = _ ↔ _
      rw [combine_eq_not_decisive_iff, ih, List.forall_mem_cons]

/-! ## Bracketing -/

/-- **The expression joins the operands**, in this order, bracketed in some way. -/
inductive Brackets (c : Connective) : List Expression → Expression → Prop
  | operand (e : Expression) : Brackets c [e] e
  | join {lefts rights : List Expression} {left right : Expression} : Brackets c lefts left →
      Brackets c rights right → Brackets c (lefts ++ rights) (c.join left right)

variable {operands others : List Expression} {e e' : Expression}

/-- The value of a bracketed chain is that of the chain. -/
theorem Brackets.evalBool_eq (h : c.Brackets operands e) (ctx : Context) :
    e.evalBool ctx = c.verdict (operands.map fun operand => operand.evalBool ctx) := by
  induction h with
  | operand e => exact (verdict_singleton _).symm
  | join _ _ ihleft ihright => rw [evalBool_join, ihleft, ihright, List.map_append, verdict_append]

theorem Brackets.decisive_iff (h : c.Brackets operands e) (ctx : Context) :
    e.evalBool ctx = .ok c.decisive ↔
      ∃ operand ∈ operands, operand.evalBool ctx = .ok c.decisive := by
  rw [h.evalBool_eq, verdict_eq_decisive_iff, List.mem_map]

theorem Brackets.not_decisive_iff (h : c.Brackets operands e) (ctx : Context) :
    e.evalBool ctx = .ok (!c.decisive) ↔
      ∀ operand ∈ operands, operand.evalBool ctx = .ok (!c.decisive) := by
  rw [h.evalBool_eq, verdict_eq_not_decisive_iff, List.forall_mem_map]

/-- A chain that comes to no truth value has a fault. -/
theorem exists_fault {result : Except Fault Bool} (h : result ≠ .ok c.decisive)
    (h' : result ≠ .ok (!c.decisive)) : ∃ fault, result = .error fault := by
  cases result with
  | error fault => exact ⟨fault, rfl⟩
  | ok b =>
      by_cases hb : b = c.decisive
      · exact absurd (congrArg Except.ok hb) h
      · exact absurd (congrArg Except.ok (Bool.eq_not.mpr hb)) h'

/-- **A chain of `&&` or of `||` comes to the same however it is ordered and bracketed**: to
the deciding truth value if an operand has it, to the other one if all operands have that, and
to a fault otherwise.  In one order, it is also the same fault. -/
theorem order_and_brackets_irrelevant (hperm : operands.Perm others)
    (h : c.Brackets operands e) (h' : c.Brackets others e') (ctx : Context) :
    ((∃ operand ∈ operands, operand.evalBool ctx = .ok c.decisive) →
      e.evalBool ctx = .ok c.decisive ∧ e'.evalBool ctx = .ok c.decisive) ∧
    ((∀ operand ∈ operands, operand.evalBool ctx = .ok (!c.decisive)) →
      e.evalBool ctx = .ok (!c.decisive) ∧ e'.evalBool ctx = .ok (!c.decisive)) ∧
    ((¬∃ operand ∈ operands, operand.evalBool ctx = .ok c.decisive) →
      (¬∀ operand ∈ operands, operand.evalBool ctx = .ok (!c.decisive)) →
      ∃ fault fault', e.evalBool ctx = .error fault ∧ e'.evalBool ctx = .error fault') ∧
    (operands = others → e.evalBool ctx = e'.evalBool ctx) := by
  have hdecisive := h'.decisive_iff ctx
  have hother := h'.not_decisive_iff ctx
  simp only [← hperm.mem_iff] at hdecisive hother
  refine ⟨fun hany => ?_, fun hall => ?_, fun hnone hnot => ?_, ?_⟩
  · exact ⟨(h.decisive_iff ctx).mpr hany, hdecisive.mpr hany⟩
  · exact ⟨(h.not_decisive_iff ctx).mpr hall, hother.mpr hall⟩
  · obtain ⟨fault, hfault⟩ := exists_fault (mt (h.decisive_iff ctx).mp hnone)
      (mt (h.not_decisive_iff ctx).mp hnot)
    obtain ⟨fault', hfault'⟩ := exists_fault (mt hdecisive.mp hnone) (mt hother.mp hnot)
    exact ⟨fault, fault', hfault, hfault'⟩
  · rintro rfl
    rw [h.evalBool_eq, h'.evalBool_eq]

/-- A number and a missing parameter beside a false operand of `&&`, in two orders, and beside
a false operand of `||`, which decides nothing. -/
theorem false_among_faults :
    let number : Expression := .literal (.int 1)
    let missing : Expression := .member (.ident "params") "x"
    let no : Expression := .literal (.bool false)
    ((Expression.and (.and number missing) no).evalBool Expression.emptyContext = .ok false ∧
      (Expression.and no (.and number missing)).evalBool Expression.emptyContext = .ok false) ∧
    ∃ fault fault',
      (Expression.or (.or number missing) no).evalBool Expression.emptyContext = .error fault ∧
      (Expression.or no (.or missing number)).evalBool Expression.emptyContext = .error fault' := by
  intro number missing no
  have hand : and.Brackets [number, missing, no] (.and (.and number missing) no) :=
    .join (.join (.operand number) (.operand missing)) (.operand no)
  have hand' : and.Brackets [no, number, missing] (.and no (.and number missing)) :=
    .join (.operand no) (.join (.operand number) (.operand missing))
  have hor : or.Brackets [number, missing, no] (.or (.or number missing) no) :=
    .join (.join (.operand number) (.operand missing)) (.operand no)
  have hor' : or.Brackets [no, missing, number] (.or no (.or missing number)) :=
    .join (.operand no) (.join (.operand missing) (.operand number))
  have hperm : [number, missing, no].Perm [no, number, missing] :=
    List.perm_append_singleton no [number, missing]
  have hperm' : [number, missing, no].Perm [no, missing, number] :=
    (List.reverse_perm [number, missing, no]).symm
  obtain ⟨hfalse, -⟩ := order_and_brackets_irrelevant hperm hand hand' Expression.emptyContext
  obtain ⟨-, -, hfault, -⟩ :=
    order_and_brackets_irrelevant hperm' hor hor' Expression.emptyContext
  refine ⟨hfalse ⟨no, by simp, rfl⟩, hfault ?_ fun hall => ?_⟩
  · rintro ⟨operand, hmem, htrue⟩
    simp only [List.mem_cons, List.not_mem_nil, or_false] at hmem
    rcases hmem with rfl | rfl | rfl <;> cases htrue
  · cases hall number List.mem_cons_self

end Connective
end Placement
