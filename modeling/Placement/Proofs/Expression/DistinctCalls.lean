import Placement.Proofs.Expression.Sameness
import Placement.Proofs.Expression.TwoPhases
/-! # Each call once

Before an expression is evaluated, its host calls are collected, and the host is asked for
what was collected.  **The host is asked for each distinct call once, in the order in which the
calls first stand in the tree; or, if an argument of any of them cannot be evaluated, for
nothing at all** (`Expression.asked_once_or_not`).

A call is dropped if it equals a call before it, whether that one was kept or dropped itself.
The collecting looks among the kept ones only, which comes to the same because equality is
transitive (`HostCall.collect_eq`).
-/
namespace Placement

namespace HostCall
variable {ctx : Context} {found : List (String × List Expression)}
  {calls all : List HostCall} {name : String} {args : List Expression}

/-! ## What is asked for -/

/-- The calls that equal none before them. -/
def firsts : List HostCall → List HostCall
  | [] => []
  | call :: rest => call :: (firsts rest).filter fun later => !call.same later

/-- No two of them are equal. -/
theorem pairwise_firsts (calls : List HostCall) :
    (firsts calls).Pairwise fun a b => a.same b = false ∧ b.same a = false := by
  induction calls with
  | nil => exact .nil
  | cons call rest ih =>
      refine .cons (fun later hlater => ?_) (ih.filter _)
      have hdiffers : call.same later = false := by simpa using (List.mem_filter.mp hlater).2
      refine ⟨hdiffers, Bool.eq_false_iff.mpr fun hsame => ?_⟩
      rw [same_symm hsame] at hdiffers
      cases hdiffers

/-- Each call is among them, or an equal one is. -/
theorem exists_mem_firsts {call : HostCall} (h : call ∈ calls) :
    ∃ known ∈ firsts calls, known = call ∨ known.same call = true := by
  induction calls with
  | nil => cases h
  | cons first rest ih =>
      rcases List.mem_cons.mp h with rfl | hrest
      · exact ⟨call, List.mem_cons_self, .inl rfl⟩
      obtain ⟨known, hmem, hknown⟩ := ih hrest
      -- What stood for the call in the rest is kept, unless it equals the first call.
      by_cases hfirst : first.same known = true
      · refine ⟨first, List.mem_cons_self, .inr ?_⟩
        rcases hknown with rfl | hsame
        · exact hfirst
        · exact same_trans hfirst hsame
      · have hkept : known ∈ (firsts rest).filter fun later => !first.same later :=
          List.mem_filter.mpr ⟨hmem, by simpa using hfirst⟩
        exact ⟨known, List.mem_cons_of_mem _ hkept, hknown⟩

/-- The call that a node asks for: under its name, with the values of its arguments. -/
def Asks (ctx : Context) (asked : String × List Expression) (call : HostCall) : Prop :=
  call.name = asked.1 ∧ Expression.evalList ctx asked.2 = .ok call.args

/-! ## What is wrong with the arguments of a call -/

/-- What is wrong with an argument of the host call `name`: a host call stands in it, or it
has no value. -/
def argumentFault? (ctx : Context) (name : String) (arg : Expression) : Option Fault :=
  if occursIn arg then some (.nestedHostCall name)
  else
    match arg.eval ctx with
    | .ok _ => none
    | .error fault => some fault

/-- What is wrong with the first argument of a call that something is wrong with. -/
def callFault? (ctx : Context) (asked : String × List Expression) : Option Fault :=
  asked.2.findSome? (argumentFault? ctx asked.1)

/-- What is wrong with a node, if it is a host call. -/
def nodeFault? (ctx : Context) (node : Expression) : Option Fault :=
  (ofNode? node).bind (callFault? ctx)

theorem findSome?_nodeFault? (nodes : List Expression) :
    nodes.findSome? (nodeFault? ctx) = (nodes.filterMap ofNode?).findSome? (callFault? ctx) := by
  induction nodes with
  | nil => rfl
  | cons node rest ih =>
      rw [List.findSome?_cons, nodeFault?]
      cases hnode : ofNode? node with
      | none => rw [List.filterMap_cons_none hnode, ← ih]; rfl
      | some asked => rw [List.filterMap_cons_some hnode, List.findSome?_cons, ← ih]; rfl

/-- Arguments are evaluated up to the first one with which something is wrong. -/
theorem evalArgs_spec (args : List Expression) :
    (∃ fault, args.findSome? (argumentFault? ctx name) = some fault ∧
      evalArgs ctx name args = .error fault) ∨
    args.findSome? (argumentFault? ctx name) = none ∧
      ∃ values, evalArgs ctx name args = .ok values := by
  induction args with
  | nil => exact .inr ⟨rfl, [], rfl⟩
  | cons arg rest ih =>
      rw [evalArgs, List.findSome?_cons, argumentFault?]
      cases occursIn arg with
      | true => exact .inl ⟨_, rfl, rfl⟩
      | false =>
          cases arg.eval ctx with
          | error fault => exact .inl ⟨fault, rfl, rfl⟩
          | ok v =>
              rcases ih with ⟨fault, hfault, hrest⟩ | ⟨hnone, values, hrest⟩
              · exact .inl ⟨fault, hfault, by rw [hrest]; rfl⟩
              · exact .inr ⟨hnone, v :: values, by rw [hrest]; rfl⟩

theorem evaluate_spec (asked : String × List Expression) :
    (∃ fault, callFault? ctx asked = some fault ∧
      evaluate ctx asked.1 asked.2 = .error fault) ∨
    callFault? ctx asked = none ∧
      ∃ call, evaluate ctx asked.1 asked.2 = .ok call ∧ Asks ctx asked call := by
  rcases evalArgs_spec asked.2 with ⟨fault, hfault, hargs⟩ | ⟨hnone, values, hargs⟩
  · exact .inl ⟨fault, hfault, by rw [evaluate, hargs]; rfl⟩
  · refine .inr ⟨hnone, ⟨asked.1, values⟩, by rw [evaluate, hargs]; rfl, rfl, ?_⟩
    exact (Expression.evalArgs_ok hargs).2

/-! ## Collecting -/

/-- **What collecting does**, behind calls that were collected before: it ends at the first
call with which something is wrong, or adds the calls that equal none before them. -/
theorem collect_spec (found : List (String × List Expression)) (calls : List HostCall) :
    (∃ fault, found.findSome? (callFault? ctx) = some fault ∧
      collect ctx found calls = .error fault) ∨
    found.findSome? (callFault? ctx) = none ∧
      ∃ all, List.Forall₂ (Asks ctx) found all ∧
        collect ctx found calls =
          .ok (calls ++
            (firsts all).filter fun later => !calls.any fun known => known.same later) := by
  induction found generalizing calls with
  | nil => exact .inr ⟨rfl, [], .nil, by rw [collect, firsts, List.filter_nil, List.append_nil]⟩
  | cons asked rest ih =>
      rw [collect, List.findSome?_cons]
      rcases evaluate_spec asked with ⟨fault, hfault, hevaluate⟩ | ⟨hnone, call, hevaluate, hasks⟩
      · rw [hfault, hevaluate]
        exact .inl ⟨fault, rfl, rfl⟩
      rw [hnone, hevaluate]
      rcases ih (if calls.any fun known => known.same call then calls else calls ++ [call]) with
        ⟨fault, hfault, hrest⟩ | ⟨hnone', all, hall, hrest⟩
      · exact .inl ⟨fault, hfault, hrest⟩
      refine .inr ⟨hnone', call :: all, .cons hasks hall, hrest.trans ?_⟩
      rw [firsts, List.filter_cons, List.filter_filter]
      cases hknown : calls.any fun known => known.same call with
      | true =>
          refine congrArg (fun kept => Except.ok (calls ++ kept)) (List.filter_congr ?_)
          intro later _
          -- What equals this call equals the one that is known already.
          cases hsame : call.same later with
          | false => exact (Bool.and_true _).symm
          | true =>
              obtain ⟨known, hmem, hknown⟩ := List.any_eq_true.mp hknown
              have hany : (calls.any fun known => known.same later) = true :=
                List.any_eq_true.mpr ⟨known, hmem, same_trans hknown hsame⟩
              rw [if_pos rfl, hany]
              rfl
      | false =>
          rw [if_neg Bool.false_ne_true, Bool.not_false, if_pos rfl, List.append_assoc]
          refine congrArg (fun kept => Except.ok (calls ++ call :: kept)) (List.filter_congr ?_)
          intro later _
          rw [List.any_append, Bool.not_or, List.any_cons, List.any_nil, Bool.or_false]

/-! ## Asking -/

/-- A host that writes down each call before it answers it. -/
def recorded {m : Type → Type} [Monad m] (host : HostCall → m Value) (call : HostCall) :
    StateT (List HostCall) m Value := do
  modify (· ++ [call])
  host call

theorem run_resolve_recorded {m : Type → Type} [Monad m] [LawfulMonad m]
    (host : HostCall → m Value) (calls log : List HostCall) :
    (resolve (recorded host) calls).run log =
      (fun resolved => (resolved, log ++ calls)) <$> resolve host calls := by
  induction calls generalizing log with
  | nil => simp [resolve]
  | cons call rest ih => simp [resolve, recorded, ih]

end HostCall

namespace Expression
open HostCall
variable {ctx : Context} {e : Expression} {calls : List HostCall}

/-- What the host is asked for is what was collected. -/
theorem run_evaluate_recorded {m : Type → Type} [Monad m] [LawfulMonad m]
    (h : e.hostCalls ctx = .ok calls) (host : HostCall → m Value) (log : List HostCall) :
    (e.evaluate ctx (recorded host)).run log =
      (fun outcome => (outcome, log ++ calls)) <$> e.evaluate ctx host := by
  rw [evaluate, evaluate, h]
  cases calls with
  | nil => simp
  | cons call rest => simp [run_resolve_recorded]

theorem evaluate_of_hostCalls_error {fault : Fault} (h : e.hostCalls ctx = .error fault)
    {m : Type → Type} [Monad m] (host : HostCall → m Value) :
    e.evaluate ctx host = pure (.error fault) := by
  rw [evaluate, h]

theorem hostCalls_spec (ctx : Context) (e : Expression) :
    (∃ fault, e.nodes.findSome? (nodeFault? ctx) = some fault ∧
      e.hostCalls ctx = .error fault) ∨
    e.nodes.findSome? (nodeFault? ctx) = none ∧
      ∃ all, List.Forall₂ (Asks ctx) (e.nodes.filterMap ofNode?) all ∧
        e.hostCalls ctx = .ok (firsts all) := by
  rw [findSome?_nodeFault?]
  rcases collect_spec (e.nodes.filterMap ofNode?) [] with hfault | ⟨hnone, all, hall, hcollect⟩
  · exact .inl hfault
  · refine .inr ⟨hnone, all, hall, hcollect.trans ?_⟩
    exact congrArg Except.ok (List.filter_eq_self.mpr fun _ _ => rfl)

/-- **The host is asked for the distinct calls of an expression, in the order in which they
stand, for each of them once; or not at all**, if something is wrong with the arguments of a
call, and then the fault is that of the first such call. -/
theorem asked_once_or_not (ctx : Context) (e : Expression) :
    (∀ fault, e.nodes.findSome? (nodeFault? ctx) = some fault →
      e.hostCalls ctx = .error fault ∧
        ∀ {m : Type → Type} [Monad m] (host : HostCall → m Value),
          e.evaluate ctx host = pure (.error fault)) ∧
    (e.nodes.findSome? (nodeFault? ctx) = none →
      ∃ all calls, List.Forall₂ (Asks ctx) (e.nodes.filterMap ofNode?) all ∧
        e.hostCalls ctx = .ok calls ∧ calls = firsts all ∧
        (calls.Pairwise fun a b => a.same b = false ∧ b.same a = false) ∧
        (∀ call ∈ all, ∃ known ∈ calls, known = call ∨ known.same call = true) ∧
        ∀ {m : Type → Type} [Monad m] [LawfulMonad m] (host : HostCall → m Value)
          (log : List HostCall), (e.evaluate ctx (recorded host)).run log =
            (fun outcome => (outcome, log ++ calls)) <$> e.evaluate ctx host) := by
  rcases hostCalls_spec ctx e with ⟨fault, hfault, hcalls⟩ | ⟨hnone, all, hall, hcalls⟩
  · rw [hfault]
    refine ⟨?_, nofun⟩
    rintro _ ⟨⟩
    exact ⟨hcalls, evaluate_of_hostCalls_error hcalls⟩
  · rw [hnone]
    refine ⟨nofun, fun _ => ⟨all, firsts all, hall, hcalls, rfl, pairwise_firsts all, ?_, ?_⟩⟩
    · exact fun call hmem => exists_mem_firsts hmem
    · exact run_evaluate_recorded hcalls

/-- A list of questions about something being days ago. -/
def daysSinceEach (args : List Expression) : Expression :=
  .list (args.map fun arg => .method (.ident "platform") "daysSince" [arg])

/-- Two spellings of a text and two zeros are asked for once each, an undefined number each
time; and of two calls that cannot be evaluated, the first one is reported. -/
theorem signup_asked_once :
    let undefined : Value := .float (Float.ofBits 0x7ff8000000000000)
    let zero : Value := .float (Float.ofBits 0)
    let args : List Expression := [.literal (.string "signup"),
      .arithmetic .add (.literal (.string "sign")) (.literal (.string "up")), ofValue zero,
      .unary .negate (ofValue zero), ofValue undefined, ofValue undefined]
    let faulty : List Expression := args ++
      [.method (.ident "platform") "daysSince" [.member (.ident "params") "x"],
        .method (.ident "device") "locale" []]
    ((daysSinceEach args).evaluate emptyContext
        (recorded fun call => (pure (daysHost.answer call) : Id Value))).run [] =
      (.error (.notBoolean "list"), [⟨"daysSince", [.string "signup"]⟩, ⟨"daysSince", [zero]⟩,
        ⟨"daysSince", [undefined]⟩, ⟨"daysSince", [undefined]⟩]) ∧
    (daysSinceEach faulty).evaluate emptyContext
        (fun call => (pure (daysHost.answer call) : Id Value)) =
      .error (.noSuchKey "x") := by
  intro undefined zero args faulty
  obtain ⟨-, hcollected⟩ := asked_once_or_not emptyContext (daysSinceEach args)
  obtain ⟨hfault, -⟩ := asked_once_or_not emptyContext (daysSinceEach faulty)
  obtain ⟨_, calls, -, hcalls, -, -, -, hrun⟩ := hcollected rfl
  have hdistinct : (daysSinceEach args).hostCalls emptyContext = .ok
      [⟨"daysSince", [.string "signup"]⟩, ⟨"daysSince", [zero]⟩, ⟨"daysSince", [undefined]⟩,
        ⟨"daysSince", [undefined]⟩] := rfl
  refine ⟨?_, (hfault _ rfl).2 _⟩
  rw [hrun, Except.ok.inj (hcalls.symm.trans hdistinct)]
  rfl

end Expression
end Placement
