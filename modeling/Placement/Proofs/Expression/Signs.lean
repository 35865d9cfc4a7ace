import Placement.Proofs.Expression.Asking
import Placement.Proofs.Expression.DepthLimit
/-! # Signs in front of numbers

A reader folds a minus sign in front of a number into the literal (`Expression.negated`), so
that a number below zero is one literal, as it is in stored trees.  **Folding changes the tree
and nothing else** (`Expression.parse_folds_signs`): what is read is the tree that would be
read without folding, with its signs folded afterwards, and both have the same value and ask
for the same host calls in every context.
-/
namespace Placement
namespace Expression
open HostCall

/-! ## Folding the signs of a tree -/

/-- A minus sign is folded into a number behind it. -/
def foldSign : Expression → Expression
  | .unary .negate operand => negated operand
  | node => node

/-- **A tree with all its signs folded**, the inner ones first. -/
def foldSigns (e : Expression) : Expression := Id.run (e.rebuild fun node => pure (foldSign node))

variable {ctx : Context} {e operand : Expression} {es : List Expression} {name : String}

theorem rebuildList_foldSign (es : List Expression) :
    rebuildList (fun node => (pure (foldSign node) : Id Expression)) es = es.map foldSigns := by
  induction es with
  | nil => rfl
  | cons e rest ih => exact congrArg (foldSigns e :: ·) ih

theorem rebuildEntries_foldSign (entries : List (Expression × Expression)) :
    rebuildEntries (fun node => (pure (foldSign node) : Id Expression)) entries =
      entries.map fun entry => (foldSigns entry.1, foldSigns entry.2) := by
  induction entries with
  | nil => rfl
  | cons entry rest ih => exact congrArg ((foldSigns entry.1, foldSigns entry.2) :: ·) ih

theorem foldSigns_list : foldSigns (.list es) = .list (es.map foldSigns) :=
  congrArg list (rebuildList_foldSign es)

theorem foldSigns_map (entries : List (Expression × Expression)) :
    foldSigns (.map entries) =
      .map (entries.map fun entry => (foldSigns entry.1, foldSigns entry.2)) :=
  congrArg map (rebuildEntries_foldSign entries)

theorem foldSigns_call : foldSigns (.call name es) = .call name (es.map foldSigns) :=
  congrArg (call name) (rebuildList_foldSign es)

theorem foldSigns_method (receiver : Expression) :
    foldSigns (.method receiver name es) =
      .method (foldSigns receiver) name (es.map foldSigns) :=
  congrArg (method (foldSigns receiver) name) (rebuildList_foldSign es)

theorem foldSigns_join {level : Level} {t : Token} {join : Expression → Expression → Expression}
    (h : level.join? t = some join) (left right : Expression) :
    foldSigns (join left right) = join (foldSigns left) (foldSigns right) := by
  cases level <;> cases t <;> cases h <;> rfl

/-! ## What is read -/

theorem exists_list_of_derives {negate : Expression → Expression} {close : Token} {n : Nat}
    {ts : List Token} (h : Derives negate (.items close) n ts e) : ∃ es, e = .list es := by
  cases h <;> exact ⟨_, rfl⟩

theorem exists_map_of_derives {negate : Expression → Expression} {n : Nat} {ts : List Token}
    (h : Derives negate .entries n ts e) : ∃ entries, e = .map entries := by
  cases h <;> exact ⟨_, rfl⟩

/-- **The same tokens stand for a tree with and without folding**, and the one is the other with
its signs folded. -/
theorem exists_of_derives_negated {form : Form} {n : Nat} {ts : List Token}
    (h : Derives negated form n ts e) :
    ∃ plain, Derives (.unary .negate) form n ts plain ∧ foldSigns plain = e := by
  induction h with
  | bare _ ih =>
      obtain ⟨plain, h, rfl⟩ := ih
      exact ⟨plain, .bare h, rfl⟩
  | conditional _ _ _ ihcondition ihyes ihno =>
      obtain ⟨condition, hcondition, rfl⟩ := ihcondition
      obtain ⟨yes, hyes, rfl⟩ := ihyes
      obtain ⟨no, hno, rfl⟩ := ihno
      exact ⟨_, .conditional hcondition hyes hno, rfl⟩
  | first _ ih =>
      obtain ⟨plain, h, rfl⟩ := ih
      exact ⟨plain, .first h, rfl⟩
  | link _ hjoin _ ihleft ihright =>
      obtain ⟨left, hleft, rfl⟩ := ihleft
      obtain ⟨right, hright, rfl⟩ := ihright
      exact ⟨_, .link hleft hjoin hright, foldSigns_join hjoin left right⟩
  | tighter htighter _ ih =>
      obtain ⟨plain, h, rfl⟩ := ih
      exact ⟨plain, .tighter htighter h, rfl⟩
  | tightest htightest _ ih =>
      obtain ⟨plain, h, rfl⟩ := ih
      exact ⟨plain, .tightest htightest h, rfl⟩
  | not _ ih =>
      obtain ⟨operand, h, rfl⟩ := ih
      exact ⟨_, .not h, rfl⟩
  | minus _ ih =>
      obtain ⟨operand, h, rfl⟩ := ih
      exact ⟨_, .minus h, rfl⟩
  | member _ ih =>
      obtain ⟨plain, h, rfl⟩ := ih
      exact ⟨plain, .member h, rfl⟩
  | simple _ ih =>
      obtain ⟨plain, h, rfl⟩ := ih
      exact ⟨plain, .simple h, rfl⟩
  | select _ ih =>
      obtain ⟨target, h, rfl⟩ := ih
      exact ⟨_, .select h, rfl⟩
  | method _ _ ih ihargs =>
      obtain ⟨receiver, h, rfl⟩ := ih
      obtain ⟨plain, hargs, hfold⟩ := ihargs
      obtain ⟨args, rfl⟩ := exists_list_of_derives hargs
      cases hfold
      exact ⟨_, .method h hargs, rfl⟩
  | index _ _ ih ihposition =>
      obtain ⟨target, h, rfl⟩ := ih
      obtain ⟨position, hposition, rfl⟩ := ihposition
      exact ⟨_, .index h hposition, rfl⟩
  | null => exact ⟨_, .null, rfl⟩
  | bool => exact ⟨_, .bool, rfl⟩
  | int => exact ⟨_, .int, rfl⟩
  | float => exact ⟨_, .float, rfl⟩
  | string => exact ⟨_, .string, rfl⟩
  | ident => exact ⟨_, .ident, rfl⟩
  | call _ ih =>
      obtain ⟨plain, hargs, hfold⟩ := ih
      obtain ⟨args, rfl⟩ := exists_list_of_derives hargs
      cases hfold
      exact ⟨_, .call hargs, rfl⟩
  | paren _ ih =>
      obtain ⟨plain, h, rfl⟩ := ih
      exact ⟨plain, .paren h, rfl⟩
  | list _ ih =>
      obtain ⟨plain, h, hfold⟩ := ih
      obtain ⟨elements, rfl⟩ := exists_list_of_derives h
      exact ⟨_, .list h, hfold⟩
  | map _ ih =>
      obtain ⟨plain, h, hfold⟩ := ih
      obtain ⟨entries, rfl⟩ := exists_map_of_derives h
      exact ⟨_, .map h, hfold⟩
  | noItems => exact ⟨_, .noItems, rfl⟩
  | lastItem _ ih =>
      obtain ⟨item, h, rfl⟩ := ih
      exact ⟨_, .lastItem h, rfl⟩
  | moreItems _ _ ih ihmore =>
      obtain ⟨item, h, rfl⟩ := ih
      obtain ⟨plain, hmore, hfold⟩ := ihmore
      obtain ⟨items, rfl⟩ := exists_list_of_derives hmore
      cases hfold
      exact ⟨_, .moreItems h hmore, rfl⟩
  | noEntries => exact ⟨_, .noEntries, rfl⟩
  | lastEntry _ _ ihkey ihvalue =>
      obtain ⟨key, hkey, rfl⟩ := ihkey
      obtain ⟨value, hvalue, rfl⟩ := ihvalue
      exact ⟨_, .lastEntry hkey hvalue, rfl⟩
  | moreEntries _ _ _ ihkey ihvalue ihmore =>
      obtain ⟨key, hkey, rfl⟩ := ihkey
      obtain ⟨value, hvalue, rfl⟩ := ihvalue
      obtain ⟨plain, hmore, hfold⟩ := ihmore
      obtain ⟨entries, rfl⟩ := exists_map_of_derives hmore
      cases hfold
      exact ⟨_, .moreEntries hkey hvalue hmore, rfl⟩

/-! ## Values -/

theorem exactly_neg {n : Int64} (h : n ≠ Int64.minValue) :
    exactly (-n.toInt) = .ok (.int (-n)) := by
  have hlow := n.le_toInt
  have hhigh := n.toInt_lt
  have hne : n.toInt ≠ -0x8000000000000000 := fun he => h (Int64.toInt_inj.mp he)
  rw [exactly, Value.int64?, if_pos ⟨by omega, by omega⟩, Int64.ofInt_neg, Int64.ofInt_toInt]

/-- Of all numbers that can stand behind a sign, the least one alone has no negation, and it is
left alone. -/
theorem eval_negated (ctx : Context) (operand : Expression) :
    (negated operand).eval ctx = (unary .negate operand).eval ctx := by
  rw [negated.eq_def]
  split
  · split
    · rfl
    · rename_i hne
      exact (exactly_neg hne).symm
  · rfl
  · rfl

/-- A sign is kept, or a literal is left. -/
theorem negated_cases (operand : Expression) :
    negated operand = .unary .negate operand ∨
      ∃ number folded, operand = .literal number ∧ negated operand = .literal folded := by
  rw [negated.eq_def]
  split
  · split
    · exact .inl rfl
    · exact .inr ⟨_, _, rfl, rfl⟩
  · exact .inr ⟨_, _, rfl, rfl⟩
  · exact .inl rfl

theorem negated_ne (hliteral : ∀ folded, e ≠ .literal folded) (hsign : e ≠ .unary .negate operand) :
    negated operand ≠ e := by
  rcases negated_cases operand with hkept | ⟨_, folded, -, hfolded⟩
  · rw [hkept]
    exact hsign.symm
  · rw [hfolded]
    exact (hliteral folded).symm

theorem eval_has_foldSigns
    (h : ∀ target name, e = .member target name → (foldSigns target).eval ctx = target.eval ctx) :
    eval ctx (.call "has" [foldSigns e]) = eval ctx (.call "has" [e]) := by
  cases e with
  | member target name =>
      show (do let v ← (foldSigns target).eval ctx; v.hasAttribute name) = _
      rw [h target name rfl]
      rfl
  | unary op operand =>
      cases op with
      | not => rfl
      | negate => exact eval_has_of_ne fun target name => negated_ne (by simp) (by simp)
  | _ => rfl

mutual

/-- **Folding keeps the value of a tree, or the fault.** -/
theorem eval_foldSigns (ctx : Context) : ∀ e : Expression, (foldSigns e).eval ctx = e.eval ctx
  | .literal _ | .ident _ => rfl
  | .list elements => by
      rw [foldSigns_list, eval, eval, evalList_foldSigns ctx elements]
  | .map entries => by
      rw [foldSigns_map, eval, eval, evalEntries_foldSigns ctx entries]
  | .member target name => by
      show eval ctx (.member (foldSigns target) name) = _
      rw [eval, eval, eval_foldSigns ctx target]
  | .index target position => by
      show eval ctx (.index (foldSigns target) (foldSigns position)) = _
      rw [eval, eval, eval_foldSigns ctx target, eval_foldSigns ctx position]
  | .call function args => by
      rw [foldSigns_call]
      by_cases hhas : function = "has"
      · subst hhas
        match args with
        | [] => rfl
        | [arg] =>
            refine eval_has_foldSigns fun target name harg => ?_
            subst harg
            exact eval_foldSigns ctx target
        | first :: second :: rest =>
            rw [List.map_cons, List.map_cons, eval_has_of_two, eval_has_of_two]
      · rw [eval_call_of_ne hhas, eval_call_of_ne hhas, evalList_foldSigns ctx args]
  | .method receiver function args => by
      rw [foldSigns_method, eval, eval, eval_foldSigns ctx receiver, evalList_foldSigns ctx args]
  | .unary .not operand => by
      show eval ctx (.unary .not (foldSigns operand)) = _
      rw [eval, eval, eval_foldSigns ctx operand]
  | .unary .negate operand => by
      show eval ctx (negated (foldSigns operand)) = _
      rw [eval_negated, eval, eval, eval_foldSigns ctx operand]
  | .arithmetic op left right => by
      show eval ctx (.arithmetic op (foldSigns left) (foldSigns right)) = _
      rw [eval, eval, eval_foldSigns ctx left, eval_foldSigns ctx right]
  | .relation op left right => by
      show eval ctx (.relation op (foldSigns left) (foldSigns right)) = _
      rw [eval, eval, eval_foldSigns ctx left, eval_foldSigns ctx right]
  | .and left right => by
      show eval ctx (.and (foldSigns left) (foldSigns right)) = _
      rw [eval, eval, eval_foldSigns ctx left, eval_foldSigns ctx right]
  | .or left right => by
      show eval ctx (.or (foldSigns left) (foldSigns right)) = _
      rw [eval, eval, eval_foldSigns ctx left, eval_foldSigns ctx right]
  | .conditional condition yes no => by
      show eval ctx (.conditional (foldSigns condition) (foldSigns yes) (foldSigns no)) = _
      rw [eval, eval, eval_foldSigns ctx condition, eval_foldSigns ctx yes,
        eval_foldSigns ctx no]

theorem evalList_foldSigns (ctx : Context) : ∀ es : List Expression,
    evalList ctx (es.map foldSigns) = evalList ctx es
  | [] => rfl
  | e :: rest => by
      rw [List.map_cons, evalList, evalList, eval_foldSigns ctx e, evalList_foldSigns ctx rest]

theorem evalEntries_foldSigns (ctx : Context) : ∀ (entries : List (Expression × Expression))
    (stored : List (String × Value)),
    evalEntries ctx (entries.map fun entry => (foldSigns entry.1, foldSigns entry.2)) stored =
      evalEntries ctx entries stored
  | [], _ => rfl
  | (key, value) :: rest, stored => by
      simp only [List.map_cons, evalEntries, eval_foldSigns ctx key, eval_foldSigns ctx value,
        evalEntries_foldSigns ctx rest]

end

/-! ## Host calls -/

/-- The name and the arguments of a host call, with the signs in the arguments folded. -/
def foldArgs (asked : String × List Expression) : String × List Expression :=
  (asked.1, asked.2.map foldSigns)

theorem foldSigns_ident_iff : foldSigns e = .ident name ↔ e = .ident name := by
  refine ⟨fun he => ?_, ?_⟩
  · cases e with
    | ident known => exact he
    | unary op operand =>
        cases op with
        | not => cases he
        | negate => exact absurd he (negated_ne (by simp) (by simp))
    | _ => cases he
  · rintro rfl
    rfl

/-- Folding neither makes a host call of a node nor hides one. -/
theorem ofNode?_foldSigns (e : Expression) : ofNode? (foldSigns e) = (ofNode? e).map foldArgs := by
  cases e with
  | member target name =>
      have hsame : ofNode? (foldSigns (.member target name)) = ofNode? (.member target name) :=
        ofNode?_member_congr fun _ => foldSigns_ident_iff
      rw [hsame]
      cases hcall : ofNode? (.member target name) with
      | none => rfl
      | some asked =>
          obtain ⟨-, hargs, -⟩ := ofNode?_member_some hcall
          rw [Option.map_some, foldArgs, hargs]
          exact congrArg (fun args => some (asked.1, args)) hargs
  | method receiver function args =>
      rw [foldSigns_method, ofNode?_method_congr fun _ => foldSigns_ident_iff]
      cases hcall : ofNode? (.method receiver function args) with
      | none => rfl
      | some asked =>
          obtain ⟨-, hargs, -⟩ := ofNode?_method_some hcall
          rw [Option.map_some, Option.map_some, foldArgs, hargs]
  | unary op operand =>
      cases op with
      | not => rfl
      | negate =>
          show ofNode? (negated (foldSigns operand)) = none
          rcases negated_cases (foldSigns operand) with hkept | ⟨_, _, -, hfolded⟩
          · rw [hkept]
            rfl
          · rw [hfolded]
            rfl
  | _ => rfl

theorem children_foldSigns (h : ∀ operand, e ≠ .unary .negate operand) :
    (foldSigns e).children = e.children.map foldSigns := by
  cases e with
  | list elements => rw [foldSigns_list, children, children]
  | map entries =>
      rw [foldSigns_map, children, children, List.flatMap_map, List.map_flatMap]
      rfl
  | call function args => rw [foldSigns_call, children, children]
  | method receiver function args =>
      rw [foldSigns_method, children, children, List.map_cons]
  | unary op operand =>
      cases op with
      | not => rfl
      | negate => exact absurd rfl (h operand)
  | _ => rfl

theorem filterMap_nodes_negated (operand : Expression) :
    (negated operand).nodes.filterMap ofNode? = operand.nodes.filterMap ofNode? := by
  rcases negated_cases operand with hkept | ⟨_, _, rfl, hfolded⟩
  · rw [hkept, nodes, List.filterMap_append]
    exact List.append_nil _
  · rw [hfolded]
    rfl

/-- **The host calls in a folded tree are those in the tree, with their arguments folded.** -/
theorem filterMap_nodes_foldSigns (e : Expression) :
    (foldSigns e).nodes.filterMap ofNode? = (e.nodes.filterMap ofNode?).map foldArgs := by
  induction e using induction_on_children with
  | h e ih =>
      -- What a sign leaves, folded or kept, is no host call itself.
      by_cases hminus : ∃ operand, e = .unary .negate operand
      · obtain ⟨operand, rfl⟩ := hminus
        show (negated (foldSigns operand)).nodes.filterMap ofNode? = _
        rw [filterMap_nodes_negated, ih operand List.mem_cons_self, nodes, List.filterMap_append]
        exact congrArg (List.map foldArgs) (List.append_nil _).symm
      · rw [filterMap_nodes, filterMap_nodes e, ofNode?_foldSigns,
          children_foldSigns fun operand he => hminus ⟨operand, he⟩, List.flatMap_map,
          List.map_append, List.map_flatMap, Option.toList_map]
        congr 1
        exact List.flatMap_congr ih

theorem occursIn_foldSigns (e : Expression) : occursIn (foldSigns e) = occursIn e := by
  rw [occursIn_eq, occursIn_eq, filterMap_nodes_foldSigns, List.isEmpty_map]

theorem evalArgs_foldSigns (ctx : Context) (name : String) (args : List Expression) :
    evalArgs ctx name (args.map foldSigns) = evalArgs ctx name args := by
  induction args with
  | nil => rfl
  | cons arg rest ih =>
      rw [List.map_cons, evalArgs, evalArgs, occursIn_foldSigns, eval_foldSigns, ih]

theorem collect_foldArgs (found : List (String × List Expression)) (calls : List HostCall) :
    collect ctx (found.map foldArgs) calls = collect ctx found calls := by
  induction found generalizing calls with
  | nil => rfl
  | cons asked rest ih =>
      rw [List.map_cons, collect, collect, foldArgs]
      simp only [HostCall.evaluate, evalArgs_foldSigns, ih]

theorem hostCalls_foldSigns (ctx : Context) (e : Expression) :
    (foldSigns e).hostCalls ctx = e.hostCalls ctx := by
  rw [hostCalls, hostCalls, filterMap_nodes_foldSigns, collect_foldArgs]

/-! ## Reading with and without folding -/

/-- **Folding changes the tree that is read, and nothing that is computed from it.**  A text
that is accepted is accepted by a reader that keeps every sign as an operator; what is read is
its tree with the signs folded, and both have one value and one list of host calls, or the
same fault, in every context. -/
theorem parse_folds_signs {source : String} {e : Expression} (h : parse source = .ok e) :
    ∃ plain, parseWith (.unary .negate) source = .ok plain ∧ e = foldSigns plain ∧
      ∀ ctx : Context, e.eval ctx = plain.eval ctx ∧ e.hostCalls ctx = plain.hostCalls ctx := by
  obtain ⟨lexemes, n, hlexemes, hderives, hn⟩ := derives_of_parse h
  obtain ⟨plain, hplain, rfl⟩ := exists_of_derives_negated hderives
  refine ⟨plain, ?_, rfl, fun ctx => ⟨eval_foldSigns ctx plain, hostCalls_foldSigns ctx plain⟩⟩
  rw [parseWith, hlexemes]
  exact (ofTokensWith_of_derives hplain).trans (if_pos hn)

/-- Signs in the argument of a host call and in front of one, and two in front of a literal in
parentheses. -/
theorem parse_folds_signs_last :
    ∃ e plain, parse "-platform.last(-3) == --(2)" = .ok e ∧
      parseWith (.unary .negate) "-platform.last(-3) == --(2)" = .ok plain ∧
      e = foldSigns plain ∧
      ∀ ctx : Context, e.eval ctx = plain.eval ctx ∧ e.hostCalls ctx = plain.hostCalls ctx := by
  have hlexemes : Lexeme.ofSource "-platform.last(-3) == --(2)" = .ok
      [⟨.minus, 0, 1⟩, ⟨.identifier "platform", 1, 9⟩, ⟨.dot, 9, 10⟩, ⟨.identifier "last", 10, 14⟩,
        ⟨.openParen, 14, 15⟩, ⟨.minus, 15, 16⟩, ⟨.int 3, 16, 17⟩, ⟨.closeParen, 17, 18⟩,
        ⟨.equal, 19, 21⟩, ⟨.minus, 22, 23⟩, ⟨.minus, 23, 24⟩, ⟨.openParen, 24, 25⟩,
        ⟨.int 2, 25, 26⟩, ⟨.closeParen, 26, 27⟩] := by
    decide +kernel
  have hparse : parse "-platform.last(-3) == --(2)" =
      .ok (.relation .equal
        (.unary .negate (.method (.ident "platform") "last" [.literal (.int (-3))]))
        (.literal (.int 2))) := by
    rw [parse, parseWith, hlexemes]
    rfl
  obtain ⟨plain, hplain⟩ := parse_folds_signs hparse
  exact ⟨_, plain, hparse, hplain⟩

end Expression
end Placement
