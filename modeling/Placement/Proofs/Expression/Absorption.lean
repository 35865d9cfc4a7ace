import Placement.Proofs.Expression.TwoPhases
/-! # Guards

A false operand of `&&` decides it, and a true operand of `||`, whatever comes of the other
one.  For conditions with host calls that is so **exactly if the calls of the other operand
can be collected**: they are collected, arguments evaluated, before anything is evaluated.

If the other operand stands first, its calls are collected first, and an equal call of the
deciding operand gets the answer to that one; a host that tells equal calls apart may then
answer otherwise than to the operand alone.
-/
namespace Placement

theorem conjunction_false (left : Except Fault Bool) :
    conjunction left (.ok false) = .ok false := by
  cases left with
  | error fault => rfl
  | ok b => cases b <;> rfl

theorem disjunction_true (left : Except Fault Bool) : disjunction left (.ok true) = .ok true := by
  cases left with
  | error fault => rfl
  | ok b => cases b <;> rfl

theorem truth_map_bool (result : Except Fault Bool) : truth (result.map .bool) = result := by
  cases result <;> rfl

/-- The truth value of an expression, with the answers of a host. -/
def Host.evaluate (host : Host) (ctx : Context) (e : Expression) : Except Fault Bool :=
  Id.run (e.evaluate ctx fun call => pure (host.answer call))

namespace Expression
open HostCall
variable {ctx : Context} {e left right : Expression} {calls others : List HostCall} {host : Host}

theorem hostCalls_of_evaluate {b : Bool} (h : host.evaluate ctx e = .ok b) :
    ∃ calls, e.hostCalls ctx = .ok calls := by
  cases hcalls : e.hostCalls ctx with
  | ok calls => exact ⟨calls, rfl⟩
  | error fault =>
      rw [Host.evaluate, evaluate, hcalls] at h
      cases h

theorem evaluate_of_error {fault : Fault} (h : e.hostCalls ctx = .error fault) :
    host.evaluate ctx e = .error fault := by
  rw [Host.evaluate, evaluate, h]
  rfl

/-- More collected calls behind those of an expression change none of its answers. -/
theorem resolves_of_kept (hcalls : e.hostCalls ctx = .ok calls) {all : List HostCall}
    (h : calls <+: all) :
    Resolves ctx (host.resolved calls) (HostCall.answer (host.resolved all)) e.nodes := by
  intro node hnode name args hcall
  have hfound : (name, args) ∈ e.nodes.filterMap ofNode? :=
    List.mem_filterMap.mpr ⟨node, hnode, hcall⟩
  obtain ⟨call, hevaluate, hcollected⟩ := (collect_ok hcalls).2 name args hfound
  refine ⟨call, hevaluate, ?_, Host.canonical_answer⟩
  obtain ⟨more, rfl⟩ := h
  -- An equal call is found among the first calls already, or nowhere at all.
  rw [Host.resolved, Host.resolved, answer_map, answer_map, List.find?_append]
  cases hdefined : call.isUndefined with
  | true => rw [find?_of_isUndefined hdefined, find?_of_isUndefined hdefined]; rfl
  | false =>
      obtain ⟨known, hmem, hsame⟩ := hcollected hdefined
      cases hfind : calls.find? (fun known => known.same call) with
      | none => exact absurd hsame (List.find?_eq_none.mp hfind known hmem)
      | some found => rfl

/-- An expression evaluates as in one pass, with the answers to its calls and to any that were
collected behind them. -/
theorem evaluate_of_kept {all : List HostCall} (hcalls : e.hostCalls ctx = .ok calls)
    (h : calls <+: all) :
    host.evaluate ctx e = truth (e.evalAsking ctx (HostCall.answer (host.resolved all))) :=
  evaluate_of_resolves hcalls (resolves_of_kept hcalls h)

theorem evaluate_of_respects (hrespects : host.Respects) (h : e.hostCalls ctx = .ok calls) :
    host.evaluate ctx e = truth (e.evalAsking ctx host.reply) :=
  evaluate_of_resolves h (resolves_of_hostCalls hrespects h)

/-! ## Two operands -/

/-- An expression, no host call itself, whose truth value is made of those of its operands. -/
structure Combines (combine : Except Fault Bool → Except Fault Bool → Except Fault Bool)
    (e left right : Expression) : Prop where
  nodes : e.nodes = left.nodes ++ right.nodes ++ [e]
  none : ofNode? e = none
  value : ∀ ctx answer, truth (e.evalAsking ctx answer) =
    combine (truth (left.evalAsking ctx answer)) (truth (right.evalAsking ctx answer))

theorem combines_and : Combines conjunction (.and left right) left right where
  nodes := rfl
  none := rfl
  value ctx answer := by rw [evalAsking, truth_map_bool]

theorem combines_or : Combines disjunction (.or left right) left right where
  nodes := rfl
  none := rfl
  value ctx answer := by rw [evalAsking, truth_map_bool]

namespace Combines
variable {combine : Except Fault Bool → Except Fault Bool → Except Fault Bool}
  {guard other : Expression} {b : Bool}

/-- The calls of the first operand are collected, and then those of the second one. -/
theorem hostCalls_eq (h : Combines combine e left right) :
    e.hostCalls ctx = left.hostCalls ctx >>= collect ctx (right.nodes.filterMap ofNode?) := by
  rw [hostCalls, h.nodes, List.filterMap_append, List.filterMap_append,
    List.filterMap_cons_none h.none, List.filterMap_nil, List.append_nil, collect_append]
  rfl

theorem hostCalls_ok (h : Combines combine e left right) (hleft : left.hostCalls ctx = .ok calls)
    (hright : right.hostCalls ctx = .ok others) :
    ∃ all, e.hostCalls ctx = .ok all ∧ calls <+: all := by
  obtain ⟨all, hall⟩ := collect_of_collect hright calls
  refine ⟨all, ?_, (collect_ok hall).1⟩
  rw [h.hostCalls_eq, hleft]
  exact hall

/-- **An operand that decides, in front of another one**: its calls are collected first, so it
comes out as it does alone. -/
theorem evaluate_guard_first (h : Combines combine e guard other)
    (hdecides : ∀ second, combine (.ok b) second = .ok b)
    (hguard : host.evaluate ctx guard = .ok b) :
    host.evaluate ctx e = (other.hostCalls ctx).map fun _ => b := by
  obtain ⟨calls, hcalls⟩ := hostCalls_of_evaluate hguard
  cases hother : other.hostCalls ctx with
  | error fault =>
      refine evaluate_of_error ?_
      rw [h.hostCalls_eq, hcalls]
      exact collect_eq_error_iff.mp hother
  | ok others =>
      obtain ⟨all, hall, hkept⟩ := h.hostCalls_ok hcalls hother
      rw [evaluate_of_kept hcalls hkept] at hguard
      rw [evaluate_of_kept hall (List.prefix_refl all), h.value, hguard, hdecides]
      rfl

/-- **An operand that decides, behind another one**: it comes out as it does alone if the host
answers equal calls alike. -/
theorem evaluate_guard_second (h : Combines combine e other guard)
    (hdecides : ∀ first, combine first (.ok b) = .ok b) (hrespects : host.Respects)
    (hguard : host.evaluate ctx guard = .ok b) :
    host.evaluate ctx e = (other.hostCalls ctx).map fun _ => b := by
  obtain ⟨calls, hcalls⟩ := hostCalls_of_evaluate hguard
  cases hother : other.hostCalls ctx with
  | error fault =>
      refine evaluate_of_error ?_
      rw [h.hostCalls_eq, hother]
      rfl
  | ok others =>
      obtain ⟨all, hall, -⟩ := h.hostCalls_ok hother hcalls
      rw [evaluate_of_respects hrespects hcalls] at hguard
      rw [evaluate_of_respects hrespects hall, h.value, hguard, hdecides]
      rfl

end Combines

/-! ## Guards -/

/-- **A guard protects the other operand exactly if the host calls of that one can be
collected**, in front of it always, and behind it if the host answers equal calls alike;
otherwise what comes out is the fault of collecting them. -/
theorem guard_absorbs (host : Host) (guard other : Expression) :
    (host.evaluate ctx guard = .ok false →
      host.evaluate ctx (.and guard other) = (other.hostCalls ctx).map (fun _ => false) ∧
        (host.Respects →
          host.evaluate ctx (.and other guard) = (other.hostCalls ctx).map fun _ => false)) ∧
    (host.evaluate ctx guard = .ok true →
      host.evaluate ctx (.or guard other) = (other.hostCalls ctx).map (fun _ => true) ∧
        (host.Respects →
          host.evaluate ctx (.or other guard) = (other.hostCalls ctx).map fun _ => true)) := by
  refine ⟨fun hfalse => ⟨?_, fun hrespects => ?_⟩, fun htrue => ⟨?_, fun hrespects => ?_⟩⟩
  · exact combines_and.evaluate_guard_first (fun _ => rfl) hfalse
  · exact combines_and.evaluate_guard_second conjunction_false hrespects hfalse
  · exact combines_or.evaluate_guard_first (fun _ => rfl) htrue
  · exact combines_or.evaluate_guard_second disjunction_true hrespects htrue

/-- The condition `has(params.x)`. -/
def hasParam : Expression := .call "has" [.member (.ident "params") "x"]

/-- Without the parameter, its guard holds back what is asked about the sign-up. -/
theorem guard_absorbs_daysSince :
    daysHost.evaluate emptyContext
        (.and hasParam (daysSinceMore [.literal (.string "signup")])) = .ok false ∧
      daysHost.evaluate emptyContext
        (.and (daysSinceMore [.literal (.string "signup")]) hasParam) = .ok false := by
  have hguard : daysHost.evaluate emptyContext hasParam = .ok false := rfl
  obtain ⟨hbefore, hbehind⟩ :=
    (guard_absorbs daysHost hasParam (daysSinceMore [.literal (.string "signup")])).1 hguard
  exact ⟨hbefore, hbehind respects_daysHost⟩

/-! ## What a guard does not protect -/

/-- A host call in the arguments of another one. -/
def nestedCall : Expression :=
  .method (.ident "platform") "daysSince" [.method (.ident "platform") "lastEvent" []]

/-- A host that tells the two zeros apart. -/
def zeroHost : Host where
  answer call :=
    match call.args with
    | [.float x] => .bool (x.toBits == 0)
    | _ => .null
  canonical call := by
    split <;> trivial

/-- A question about a zero, or about the one below it. -/
def isZero (bits : UInt64) : Expression :=
  .method (.ident "platform") "isZero" [.literal (.float (Float.ofBits bits))]

/-- A guard does not protect arguments of host calls, neither those that fail nor those that
are host calls; and behind an equal call, a guard may come out otherwise than it does alone. -/
theorem guard_does_not_absorb :
    (daysHost.evaluate emptyContext hasParam = .ok false ∧
      daysHost.evaluate emptyContext
        (.and hasParam (daysSinceMore [.member (.ident "params") "x"])) =
          .error (.noSuchKey "x")) ∧
    (daysHost.evaluate emptyContext (.literal (.bool false)) = .ok false ∧
      daysHost.evaluate emptyContext (.and (.literal (.bool false)) nestedCall) =
        .error (.nestedHostCall "daysSince")) ∧
    (zeroHost.evaluate emptyContext (isZero 0x8000000000000000) = .ok false ∧
      zeroHost.evaluate emptyContext (.and (isZero 0) (isZero 0x8000000000000000)) = .ok true) :=
  ⟨⟨rfl, rfl⟩, ⟨rfl, rfl⟩, ⟨rfl, rfl⟩⟩

end Expression
end Placement
