import Placement.Proofs.Expression.Resolving
/-! # Two phases are one pass

The engine evaluates a condition in two phases: it collects the host calls of the whole tree
and asks for them, then it evaluates what is left with the answers in their places.  **Where
the calls can be collected at all, this has the outcome of one pass** that asks for each call
where it stands, faults included.
-/
namespace Placement
namespace Expression
open HostCall
variable {ctx : Context} {e : Expression} {calls : List HostCall} {host : Host}
  {answer : HostCall → Value}

/-- The calls that are collected resolve those of the tree. -/
theorem resolves_of_hostCalls (hrespects : host.Respects) (h : e.hostCalls ctx = .ok calls) :
    Resolves ctx (host.resolved calls) host.reply e.nodes := by
  intro node hnode name args hcall
  have hfound : (name, args) ∈ e.nodes.filterMap ofNode? :=
    List.mem_filterMap.mpr ⟨node, hnode, hcall⟩
  obtain ⟨call, hevaluate, hcollected⟩ := (collect_ok h).2 name args hfound
  exact ⟨call, hevaluate, Host.answer_resolved hrespects hcollected, Host.canonical_reply⟩

/-- An expression without host calls is left as it is. -/
theorem substitute_of_hostCalls_nil (h : e.hostCalls ctx = .ok [])
    (resolved : List (HostCall × Value)) : e.substitute ctx resolved = .ok e := by
  refine rebuild_eq_self e fun node hnode => substituteNode_of_none ?_
  exact List.filterMap_eq_nil_iff.mp (found_eq_nil h) node hnode

variable {m : Type → Type} [Monad m] [LawfulMonad m]

/-- What comes of the second phase, whatever the answers are that the calls resolve to. -/
theorem evaluate_of_resolves (h : e.hostCalls ctx = .ok calls)
    (hresolves : Resolves ctx (host.resolved calls) answer e.nodes) :
    e.evaluate ctx (fun call => (pure (host.answer call) : m Value)) =
      pure (truth (e.evalAsking ctx answer)) := by
  obtain ⟨e', hsubstitute, hspliced⟩ := substitute_spec e hresolves
  have hleft : e'.evalBool ctx = truth (e.evalAsking ctx answer) := congrArg truth hspliced.value
  cases calls with
  | nil =>
      -- There is no second phase: the tree is evaluated as it is, which is what is left of it.
      have hsame : e = e' :=
        Except.ok.inj ((substitute_of_hostCalls_nil h _).symm.trans hsubstitute)
      rw [evaluate, h, ← hleft, hsame]
  | cons first rest =>
      have hanswers : e.substitute ctx ((first :: rest).map fun call => (call, host.answer call)) =
          .ok e' := hsubstitute
      rw [evaluate, h]
      dsimp only
      rw [resolve_pure, pure_bind, hanswers, ← hleft]

/-- A host that says how many days ago something was. -/
def daysHost : Host where
  answer call := if call.name = "daysSince" then .int 5 else .bool false
  canonical call := by split <;> trivial

theorem respects_daysHost : daysHost.Respects := by
  intro known call h
  have hname : known.name = call.name := by
    rw [same, Bool.and_eq_true] at h
    exact eq_of_beq h.1
  show (if known.name = "daysSince" then Value.int 5 else .bool false) = _
  rw [hname]
  rfl

/-- No attributes and no parameters. -/
def emptyContext : Context := ⟨.map [], .map [], .map []⟩

/-- The condition that something was more than one day ago. -/
def daysSinceMore (args : List Expression) : Expression :=
  .relation .greater (.method (.ident "platform") "daysSince" args) (.literal (.int 1))

end Expression
end Placement
