import Mathlib.Data.List.Forall2
import Placement.Proofs.Expression.Literals
/-! # Asking as one goes

`Expression.evalAsking` evaluates a tree in **one pass**: it is the evaluator of the language
with one case more, for a host call, whose arguments it evaluates and which it then asks for.

The engine asks first, puts the answers as literals in the place of the calls, and evaluates
what is left.  **What is left has the value of the one pass**, as long as every host call of
the tree can be evaluated (`Expression.substitute_spec`).
-/
namespace Placement
namespace Expression
open HostCall

mutual

/-- **The value of an expression, asking for each host call where it stands.**  The argument
of `has` must be a member of something: a host call is none, even if it looks like one. -/
def evalAsking (ctx : Context) (answer : HostCall → Value) : Expression → Except Fault Value
  | .literal value => .ok value.value
  | .ident name =>
      match ctx.namespace? name with
      | some v => .ok v
      | none => .error (.unknownIdentifier name)
  | .list elements => do
      let items ← evalAskingList ctx answer elements
      .ok (.list items)
  | .map entries => do
      let entries ← evalAskingEntries ctx answer entries []
      .ok (.map entries)
  | .member target name =>
      match ofNode? (.member target name) with
      | some (asked, _) => .ok (answer ⟨asked, []⟩)
      | none => do
          let target ← evalAsking ctx answer target
          target.entry name
  | .index target position => do
      let target ← evalAsking ctx answer target
      let position ← evalAsking ctx answer position
      target.element position
  | .call function args =>
      if function = "has" then
        match args with
        | [.member target name] =>
            match ofNode? (.member target name) with
            | some _ => .error (.noSuchOverload "has" ["expr"])
            | none => do
                let target ← evalAsking ctx answer target
                target.hasAttribute name
        | _ => .error (.noSuchOverload "has" ["expr"])
      else do
        let args ← evalAskingList ctx answer args
        callFunction function args
  | .method receiver function args =>
      match ofNode? (.method receiver function args) with
      | some (asked, _) => do
          let args ← evalAskingList ctx answer args
          .ok (answer ⟨asked, args⟩)
      | none => do
          let receiver ← evalAsking ctx answer receiver
          let args ← evalAskingList ctx answer args
          callFunction function (receiver :: args)
  | .unary op operand => do
      let v ← evalAsking ctx answer operand
      op.apply v
  | .arithmetic op left right => do
      let left ← evalAsking ctx answer left
      let right ← evalAsking ctx answer right
      op.apply left right
  | .relation op left right => do
      let left ← evalAsking ctx answer left
      let right ← evalAsking ctx answer right
      let b ← op.apply left right
      .ok (.bool b)
  | .and left right =>
      (conjunction (truth (evalAsking ctx answer left)) (truth (evalAsking ctx answer right))).map
        .bool
  | .or left right =>
      (disjunction (truth (evalAsking ctx answer left)) (truth (evalAsking ctx answer right))).map
        .bool
  | .conditional condition yes no => do
      match ← evalAsking ctx answer condition with
      | .bool true => evalAsking ctx answer yes
      | .bool false => evalAsking ctx answer no
      | other => .error (mismatch "_?_:_" [other])

/-- The values of some expressions. -/
def evalAskingList (ctx : Context) (answer : HostCall → Value) :
    List Expression → Except Fault (List Value)
  | [] => .ok []
  | e :: rest => do
      let v ← evalAsking ctx answer e
      let vs ← evalAskingList ctx answer rest
      .ok (v :: vs)

/-- The entries of a map literal, stored one by one among those already stored. -/
def evalAskingEntries (ctx : Context) (answer : HostCall → Value) :
    List (Expression × Expression) → List (String × Value) → Except Fault (List (String × Value))
  | [], stored => .ok stored
  | (key, value) :: rest, stored => do
      let key ← evalAsking ctx answer key
      let key ← key.asKey
      let v ← evalAsking ctx answer value
      evalAskingEntries ctx answer rest (Entries.put key v stored)

end

variable {ctx : Context} {resolved : List (HostCall × Value)} {answer : HostCall → Value}
  {e e' : Expression} {es es' : List Expression} {name function : String}

/-! ## The host calls in a tree -/

/-- The host calls in a tree are those in its children, and its root last if it is one. -/
theorem filterMap_nodes (e : Expression) : e.nodes.filterMap ofNode? =
    e.children.flatMap (fun child => child.nodes.filterMap ofNode?) ++ (ofNode? e).toList := by
  rw [nodes_eq, List.filterMap_append, List.filterMap_flatMap, List.filterMap_cons]
  cases ofNode? e <;> rfl

theorem occursIn_eq (e : Expression) : occursIn e = !(e.nodes.filterMap ofNode?).isEmpty := by
  rw [occursIn]
  induction e.nodes with
  | nil => rfl
  | cons node rest ih =>
      rw [List.any_cons, ih, List.filterMap_cons]
      cases ofNode? node <;> rfl

/-! ## The arguments of host calls -/

theorem evalArgs_ok {values : List Value} (h : evalArgs ctx name es = .ok values) :
    (∀ arg ∈ es, occursIn arg = false) ∧ evalList ctx es = .ok values := by
  induction es generalizing values with
  | nil => exact ⟨fun _ hmem => absurd hmem List.not_mem_nil, h⟩
  | cons arg rest ih =>
      rw [evalArgs] at h
      cases hoccurs : occursIn arg with
      | true =>
          rw [if_pos hoccurs] at h
          cases h
      | false =>
          rw [if_neg (Bool.eq_false_iff.mp hoccurs)] at h
          obtain ⟨v, hv, h⟩ := exists_of_bind_eq_ok h
          obtain ⟨vs, hvs, h⟩ := exists_of_bind_eq_ok h
          obtain ⟨hnone, hrest⟩ := ih hvs
          refine ⟨List.forall_mem_cons.mpr ⟨hoccurs, hnone⟩, ?_⟩
          rw [evalList, hv, hrest]
          exact h

/-- A host call that can be evaluated has no host calls in its arguments. -/
theorem evaluate_ok {call : HostCall} (h : HostCall.evaluate ctx name es = .ok call) :
    (∀ arg ∈ es, occursIn arg = false) ∧ evalList ctx es = .ok call.args ∧ call.name = name := by
  obtain ⟨values, hvalues, h⟩ := exists_of_bind_eq_ok h
  cases h
  obtain ⟨hnone, hvalues⟩ := evalArgs_ok hvalues
  exact ⟨hnone, hvalues, rfl⟩

theorem substituteNode_of_none (h : ofNode? e = none) :
    substituteNode ctx resolved e = .ok e := by
  rw [substituteNode, h]

/-- Arguments without host calls stay as they are. -/
theorem rebuildList_args (h : ∀ arg ∈ es, occursIn arg = false) :
    rebuildList (substituteNode ctx resolved) es = .ok es := by
  refine rebuildList_eq_self es fun node hnode => substituteNode_of_none ?_
  rw [nodesOfList_eq_flatMap] at hnode
  obtain ⟨arg, harg, hmem⟩ := List.mem_flatMap.mp hnode
  have hnone := List.any_eq_false.mp (h arg harg) node hmem
  simpa using hnone

/-! ## What is left after the answers are put in -/

/-- Every host call among some nodes can be evaluated, and what it is resolved to is its
answer. -/
def Resolves (ctx : Context) (resolved : List (HostCall × Value)) (answer : HostCall → Value)
    (nodes : List Expression) : Prop :=
  ∀ node ∈ nodes, ∀ name args, ofNode? node = some (name, args) →
    ∃ call, HostCall.evaluate ctx name args = .ok call ∧
      HostCall.answer resolved call = answer call ∧ (answer call).Canonical

/-- **A tree that does the same without asking.**  Two things are looked at rather than
evaluated: the receiver of a member or of a call, which may be the name of a namespace, and
the argument of `has`. -/
structure Spliced (ctx : Context) (answer : HostCall → Value) (e e' : Expression) : Prop where
  value : e'.eval ctx = e.evalAsking ctx answer
  ident : ∀ name, e' = .ident name ↔ e = .ident name
  presence : eval ctx (.call "has" [e']) = evalAsking ctx answer (.call "has" [e])

/-- Anything but a member of something under `has` is a fault, and is not evaluated. -/
theorem eval_has_of_ne (h : ∀ target name, e ≠ .member target name) :
    eval ctx (.call "has" [e]) = .error (.noSuchOverload "has" ["expr"]) := by
  cases e with
  | member target name => exact absurd rfl (h target name)
  | _ => rfl

/-- A tree that is neither a name nor a member is neither afterwards. -/
theorem Spliced.of_value (hvalue : e'.eval ctx = e.evalAsking ctx answer)
    (hident : ∀ name, e ≠ .ident name) (hident' : ∀ name, e' ≠ .ident name)
    (hmember : ∀ target name, e ≠ .member target name)
    (hmember' : ∀ target name, e' ≠ .member target name) : Spliced ctx answer e e' where
  value := hvalue
  ident name := ⟨fun he => absurd he (hident' name), fun he => absurd he (hident name)⟩
  presence := by
    have hfault : evalAsking ctx answer (.call "has" [e]) =
        .error (.noSuchOverload "has" ["expr"]) := by
      cases e with
      | member target name => exact absurd rfl (hmember target name)
      | _ => rfl
    rw [eval_has_of_ne hmember', hfault]

theorem evalList_of_spliced (h : List.Forall₂ (Spliced ctx answer) es es') :
    evalList ctx es' = evalAskingList ctx answer es := by
  induction h with
  | nil => rfl
  | cons hfirst _ ih => rw [evalList, evalAskingList, hfirst.value, ih]

/-! ## Substitution -/

theorem ident_or_ne (e : Expression) : (∃ name, e = .ident name) ∨ ∀ name, e ≠ .ident name := by
  cases e with
  | ident name => exact .inl ⟨name, rfl⟩
  | _ => exact .inr nofun

theorem ofNode?_member_of_ne (h : ∀ name, e ≠ .ident name) : ofNode? (.member e name) = none := by
  cases e with
  | ident name => exact absurd rfl (h name)
  | _ => rfl

theorem ofNode?_method_of_ne (h : ∀ name, e ≠ .ident name) :
    ofNode? (.method e function es) = none := by
  cases e with
  | ident name => exact absurd rfl (h name)
  | _ => rfl

theorem ofNode?_method_ident :
    ofNode? (.method (.ident name) function es) =
      if callNamespaces.contains name then some (function, es) else none := rfl

/-- Whether a member is a host call depends on nothing but which name its target is. -/
theorem ofNode?_member_congr (h : ∀ known, e' = .ident known ↔ e = .ident known) :
    ofNode? (.member e' name) = ofNode? (.member e name) := by
  rcases ident_or_ne e with ⟨known, rfl⟩ | hne
  · rw [(h known).mpr rfl]
  · rw [ofNode?_member_of_ne hne,
      ofNode?_member_of_ne fun known he => hne known ((h known).mp he)]

/-- Likewise for a call on a receiver, whose arguments are those of the host call. -/
theorem ofNode?_method_congr (h : ∀ known, e' = .ident known ↔ e = .ident known) :
    ofNode? (.method e' function es') =
      (ofNode? (.method e function es)).map fun asked => (asked.1, es') := by
  rcases ident_or_ne e with ⟨known, rfl⟩ | hne
  · rw [(h known).mpr rfl, ofNode?_method_ident, ofNode?_method_ident]
    split <;> rfl
  · rw [ofNode?_method_of_ne hne,
      ofNode?_method_of_ne fun known he => hne known ((h known).mp he)]
    rfl

/-- The name and the arguments of a call under a namespace are those of the host call. -/
theorem ofNode?_method_some {receiver : Expression} {asked : String} {args : List Expression}
    (h : ofNode? (.method receiver function es) = some (asked, args)) :
    asked = function ∧ args = es ∧ ∃ name, receiver = .ident name := by
  rcases ident_or_ne receiver with ⟨name, rfl⟩ | hne
  · rw [ofNode?_method_ident] at h
    split at h
    · cases h
      exact ⟨rfl, rfl, name, rfl⟩
    · cases h
  · rw [ofNode?_method_of_ne hne] at h
    cases h

theorem ofNode?_member_some {target : Expression} {member asked : String} {args : List Expression}
    (h : ofNode? (.member target member) = some (asked, args)) :
    asked = member ∧ args = [] ∧ ∃ name, target = .ident name := by
  rcases ident_or_ne target with ⟨name, rfl⟩ | hne
  · have hident : ofNode? (.member (.ident name) member) =
        if memberNamespaces.contains name then some (member, []) else none := rfl
    rw [hident] at h
    split at h
    · cases h
      exact ⟨rfl, rfl, name, rfl⟩
    · cases h
  · rw [ofNode?_member_of_ne hne] at h
    cases h

/-- A literal in the place of a host call. -/
theorem spliced_ofValue {v : Value} (hv : v.Canonical) (hask : e.evalAsking ctx answer = .ok v)
    (hident : ∀ name, e ≠ .ident name)
    (hpresence : evalAsking ctx answer (.call "has" [e]) =
      .error (.noSuchOverload "has" ["expr"])) :
    Spliced ctx answer e (ofValue v) where
  value := (eval_ofValue ctx v hv).trans hask.symm
  ident name := ⟨fun he => absurd he (ofValue_ne_ident v), fun he => absurd he (hident name)⟩
  presence := by
    rw [hpresence]
    cases v <;> rfl

/-- The member of something that is no host call. -/
theorem Spliced.member {target target' : Expression} (h : Spliced ctx answer target target')
    (hnone : ofNode? (.member target name) = none) :
    Spliced ctx answer (.member target name) (.member target' name) where
  value := by
    rw [eval, evalAsking, hnone, h.value]
  ident _ := ⟨nofun, nofun⟩
  presence := by
    rw [eval, evalAsking, if_pos rfl, if_pos rfl, hnone, h.value]

theorem eval_call_of_ne (h : function ≠ "has") :
    eval ctx (.call function es) = evalList ctx es >>= callFunction function := by
  rw [eval.eq_def]
  exact if_neg h

theorem evalAsking_call_of_ne (h : function ≠ "has") :
    evalAsking ctx answer (.call function es) =
      evalAskingList ctx answer es >>= callFunction function := by
  rw [evalAsking.eq_def]
  exact if_neg h

theorem eval_has_of_two {first second : Expression} :
    eval ctx (.call "has" (first :: second :: es)) = .error (.noSuchOverload "has" ["expr"]) := by
  cases first <;> rfl

theorem evalAsking_has_of_two {first second : Expression} :
    evalAsking ctx answer (.call "has" (first :: second :: es)) =
      .error (.noSuchOverload "has" ["expr"]) := by
  cases first <;> rfl

/-- The call of a function by its name, `has` included. -/
theorem Spliced.call (h : List.Forall₂ (Spliced ctx answer) es es') :
    Spliced ctx answer (.call function es) (.call function es') := by
  refine .of_value ?_ nofun nofun nofun nofun
  by_cases hhas : function = "has"
  · subst hhas
    cases h with
    | nil => rfl
    | cons hfirst hrest =>
        cases hrest with
        | nil => exact hfirst.presence
        | cons hsecond hmore => rw [eval_has_of_two, evalAsking_has_of_two]
  · rw [eval_call_of_ne hhas, evalAsking_call_of_ne hhas, evalList_of_spliced h]

/-- A call on a receiver that is no host call. -/
theorem Spliced.method {receiver receiver' : Expression}
    (h : Spliced ctx answer receiver receiver') (hargs : List.Forall₂ (Spliced ctx answer) es es')
    (hnone : ofNode? (.method receiver function es) = none) :
    Spliced ctx answer (.method receiver function es) (.method receiver' function es') := by
  refine .of_value ?_ nofun nofun nofun nofun
  rw [eval, evalAsking, hnone, h.value, evalList_of_spliced hargs]

/-- Substitution finds the same host calls in the parent as before it changed the children. -/
theorem Spliced.ofNode?_member {target target' : Expression}
    (h : Spliced ctx answer target target') :
    ofNode? (.member target' name) = ofNode? (.member target name) :=
  ofNode?_member_congr h.ident

theorem Spliced.ofNode?_method {receiver receiver' : Expression}
    (h : Spliced ctx answer receiver receiver')
    (hnone : ofNode? (.method receiver function es) = none) :
    ofNode? (.method receiver' function es') = none := by
  rw [ofNode?_method_congr h.ident, hnone]
  rfl

theorem resolves_append {first second : List Expression}
    (h : Resolves ctx resolved answer (first ++ second)) :
    Resolves ctx resolved answer first ∧ Resolves ctx resolved answer second :=
  List.forall_mem_append.mp h

/-- An answer is one of those that were resolved, or `false`. -/
theorem canonical_answer (h : ∀ entry ∈ resolved, entry.2.Canonical) (call : HostCall) :
    (HostCall.answer resolved call).Canonical := by
  rw [HostCall.answer]
  split
  · rename_i hfind
    exact h _ (List.mem_of_find?_eq_some hfind)
  · trivial

theorem substituteNode_of_some {call : HostCall} (h : ofNode? e = some (name, es))
    (hcall : HostCall.evaluate ctx name es = .ok call) :
    substituteNode ctx resolved e = .ok (ofValue (HostCall.answer resolved call)) := by
  rw [substituteNode, h]
  dsimp only
  rw [hcall]
  rfl

/-- A member of something, which may be a host call without arguments. -/
theorem substitute_member {target target' : Expression}
    (hrebuild : target.rebuild (substituteNode ctx resolved) = .ok target')
    (hspliced : Spliced ctx answer target target')
    (hnode : Resolves ctx resolved answer [.member target name]) :
    ∃ e', (Expression.member target name).rebuild (substituteNode ctx resolved) = .ok e' ∧
      Spliced ctx answer (.member target name) e' := by
  cases hcall : ofNode? (.member target name) with
  | none =>
      refine ⟨.member target' name, ?_, hspliced.member hcall⟩
      rw [rebuild, hrebuild]
      exact substituteNode_of_none (hspliced.ofNode?_member.trans hcall)
  | some found =>
      obtain ⟨asked, args⟩ := found
      obtain ⟨call, hevaluate, hanswer, hcanonical⟩ :=
        hnode _ List.mem_cons_self asked args hcall
      refine ⟨ofValue (answer call), ?_, spliced_ofValue hcanonical ?_ nofun ?_⟩
      · rw [rebuild, hrebuild, ← hanswer]
        exact substituteNode_of_some (hspliced.ofNode?_member.trans hcall) hevaluate
      · obtain ⟨rfl, rfl, -⟩ := ofNode?_member_some hcall
        obtain ⟨-, hargs, hname⟩ := evaluate_ok hevaluate
        have hsame : call = ⟨asked, []⟩ := by
          cases call
          cases hargs
          cases hname
          rfl
        rw [evalAsking, hcall, hsame]
      · rw [evalAsking, if_pos rfl, hcall]

/-- A call on a receiver, which may be a host call. -/
theorem substitute_method {receiver receiver' : Expression}
    (hrebuild : receiver.rebuild (substituteNode ctx resolved) = .ok receiver')
    (hspliced : Spliced ctx answer receiver receiver')
    (hrebuild' : rebuildList (substituteNode ctx resolved) es = .ok es')
    (hspliced' : List.Forall₂ (Spliced ctx answer) es es')
    (hnode : Resolves ctx resolved answer [.method receiver function es]) :
    ∃ e', (Expression.method receiver function es).rebuild (substituteNode ctx resolved) = .ok e' ∧
      Spliced ctx answer (.method receiver function es) e' := by
  cases hcall : ofNode? (.method receiver function es) with
  | none =>
      refine ⟨.method receiver' function es', ?_, hspliced.method hspliced' hcall⟩
      rw [rebuild, hrebuild, hrebuild']
      exact substituteNode_of_none (hspliced.ofNode?_method hcall)
  | some found =>
      obtain ⟨asked, args⟩ := found
      obtain ⟨call, hevaluate, hanswer, hcanonical⟩ :=
        hnode _ List.mem_cons_self asked args hcall
      obtain ⟨rfl, rfl, known, rfl⟩ := ofNode?_method_some hcall
      obtain ⟨hnone, hargs, hname⟩ := evaluate_ok hevaluate
      -- No host call stands in the arguments, so they are the same after substitution.
      have hsame : es' = args :=
        Except.ok.inj (hrebuild'.symm.trans (rebuildList_args hnone))
      subst hsame
      refine ⟨ofValue (answer call), ?_, spliced_ofValue hcanonical ?_ nofun rfl⟩
      · rw [rebuild, hrebuild, hrebuild', (hspliced.ident known).mpr rfl, ← hanswer]
        exact substituteNode_of_some hcall hevaluate
      · rw [evalAsking, hcall, ← evalList_of_spliced hspliced', hargs, ← hname]
        rfl

mutual

/-- **Substitution leaves a tree with the value of the one pass.** -/
theorem substitute_spec : ∀ e : Expression, Resolves ctx resolved answer e.nodes →
    ∃ e', e.rebuild (substituteNode ctx resolved) = .ok e' ∧ Spliced ctx answer e e'
  | .literal value, _ => ⟨.literal value, rfl, .of_value rfl nofun nofun nofun nofun⟩
  | .ident name, _ => ⟨.ident name, rfl, ⟨rfl, fun _ => Iff.rfl, rfl⟩⟩
  | .list elements, h => by
      obtain ⟨elements', hrebuild, hspliced⟩ := substituteList_spec elements (resolves_append h).1
      refine ⟨.list elements', ?_, .of_value ?_ nofun nofun nofun nofun⟩
      · rw [rebuild, hrebuild]
        rfl
      · rw [eval, evalAsking, evalList_of_spliced hspliced]
  | .map entries, h => by
      obtain ⟨entries', hrebuild, hspliced⟩ := substituteEntries_spec entries (resolves_append h).1
      refine ⟨.map entries', ?_, .of_value ?_ nofun nofun nofun nofun⟩
      · rw [rebuild, hrebuild]
        rfl
      · rw [eval, evalAsking, hspliced]
  | .member target name, h => by
      obtain ⟨htarget, hnode⟩ := resolves_append h
      obtain ⟨target', hrebuild, hspliced⟩ := substitute_spec target htarget
      exact substitute_member hrebuild hspliced hnode
  | .index target position, h => by
      obtain ⟨hchildren, -⟩ := resolves_append h
      obtain ⟨htarget, hposition⟩ := resolves_append hchildren
      obtain ⟨target', hrebuild, hspliced⟩ := substitute_spec target htarget
      obtain ⟨position', hrebuild', hspliced'⟩ := substitute_spec position hposition
      refine ⟨.index target' position', ?_, .of_value ?_ nofun nofun nofun nofun⟩
      · rw [rebuild, hrebuild, hrebuild']
        rfl
      · rw [eval, evalAsking, hspliced.value, hspliced'.value]
  | .call function args, h => by
      obtain ⟨args', hrebuild, hspliced⟩ := substituteList_spec args (resolves_append h).1
      refine ⟨.call function args', ?_, .call hspliced⟩
      rw [rebuild, hrebuild]
      rfl
  | .method receiver function args, h => by
      obtain ⟨hchildren, hnode⟩ := resolves_append h
      obtain ⟨hreceiver, hlist⟩ := resolves_append hchildren
      obtain ⟨receiver', hrebuild, hspliced⟩ := substitute_spec receiver hreceiver
      obtain ⟨args', hrebuild', hspliced'⟩ := substituteList_spec args hlist
      exact substitute_method hrebuild hspliced hrebuild' hspliced' hnode
  | .unary op operand, h => by
      obtain ⟨operand', hrebuild, hspliced⟩ := substitute_spec operand (resolves_append h).1
      refine ⟨.unary op operand', ?_, .of_value ?_ nofun nofun nofun nofun⟩
      · rw [rebuild, hrebuild]
        rfl
      · rw [eval, evalAsking, hspliced.value]
  | .arithmetic op left right, h | .relation op left right, h | .and left right, h
  | .or left right, h => by
      obtain ⟨hchildren, -⟩ := resolves_append h
      obtain ⟨hleft, hright⟩ := resolves_append hchildren
      obtain ⟨left', hrebuild, hspliced⟩ := substitute_spec left hleft
      obtain ⟨right', hrebuild', hspliced'⟩ := substitute_spec right hright
      apply Exists.intro
      apply And.intro
      · rw [rebuild, hrebuild, hrebuild']
        rfl
      · apply Spliced.of_value
        · rw [eval, evalAsking, hspliced.value, hspliced'.value]
        all_goals exact nofun
  | .conditional condition yes no, h => by
      obtain ⟨hchildren, -⟩ := resolves_append h
      obtain ⟨hfirst, hno⟩ := resolves_append hchildren
      obtain ⟨hcondition, hyes⟩ := resolves_append hfirst
      obtain ⟨condition', hrebuild, hspliced⟩ := substitute_spec condition hcondition
      obtain ⟨yes', hrebuildYes, hsplicedYes⟩ := substitute_spec yes hyes
      obtain ⟨no', hrebuildNo, hsplicedNo⟩ := substitute_spec no hno
      refine ⟨.conditional condition' yes' no', ?_, .of_value ?_ nofun nofun nofun nofun⟩
      · rw [rebuild, hrebuild, hrebuildYes, hrebuildNo]
        rfl
      · rw [eval, evalAsking, hspliced.value]
        cases evalAsking ctx answer condition with
        | error fault => rfl
        | ok v =>
            cases v with
            | bool b =>
                cases b with
                | false => exact hsplicedNo.value
                | true => exact hsplicedYes.value
            | _ => rfl

theorem substituteList_spec : ∀ es : List Expression,
    Resolves ctx resolved answer (nodesOfList es) →
      ∃ es', rebuildList (substituteNode ctx resolved) es = .ok es' ∧
        List.Forall₂ (Spliced ctx answer) es es'
  | [], _ => ⟨[], rfl, .nil⟩
  | e :: rest, h => by
      obtain ⟨hfirst, hrest⟩ := resolves_append h
      obtain ⟨e', hrebuild, hspliced⟩ := substitute_spec e hfirst
      obtain ⟨rest', hrebuild', hspliced'⟩ := substituteList_spec rest hrest
      refine ⟨e' :: rest', ?_, .cons hspliced hspliced'⟩
      rw [rebuildList, hrebuild, hrebuild']
      rfl

theorem substituteEntries_spec : ∀ entries : List (Expression × Expression),
    Resolves ctx resolved answer (nodesOfEntries entries) →
      ∃ entries', rebuildEntries (substituteNode ctx resolved) entries = .ok entries' ∧
        ∀ stored, evalEntries ctx entries' stored = evalAskingEntries ctx answer entries stored
  | [], _ => ⟨[], rfl, fun _ => rfl⟩
  | (key, value) :: rest, h => by
      obtain ⟨hentry, hrest⟩ := resolves_append h
      obtain ⟨hkey, hvalue⟩ := resolves_append hentry
      obtain ⟨key', hrebuildKey, hsplicedKey⟩ := substitute_spec key hkey
      obtain ⟨value', hrebuildValue, hsplicedValue⟩ := substitute_spec value hvalue
      obtain ⟨rest', hrebuild, hspliced⟩ := substituteEntries_spec rest hrest
      refine ⟨(key', value') :: rest', ?_, fun stored => ?_⟩
      · rw [rebuildEntries, hrebuildKey, hrebuildValue, hrebuild]
        rfl
      · simp only [evalEntries, evalAskingEntries, hsplicedKey.value, hsplicedValue.value, hspliced]

end

end Expression
end Placement
