import Placement.Proofs.Expression.Asking
/-! # Trees after substitution

Substitution goes bottom up and looks at a parent when its children have been replaced.  **It
fills in the answers and does nothing else** (`Expression.substitute_fills`): seen from the top,
each outermost host call has become the literal of a value, whatever stood in its arguments, and
all other nodes are as they were.  A literal holds no host calls, so none is left, and a tree
without host calls is not changed again.
-/
namespace Placement
namespace Expression
open HostCall

section
variable (value : Expression → Value)

mutual

/-- **A tree with a literal in the place of each outermost host call.**  Every other node stays. -/
def fill : Expression → Expression
  | .literal value => .literal value
  | .ident name => .ident name
  | .list elements => .list (fillList elements)
  | .map entries => .map (fillEntries entries)
  | .member target name =>
      match ofNode? (.member target name) with
      | some _ => ofValue (value (.member target name))
      | none => .member (fill target) name
  | .index target position => .index (fill target) (fill position)
  | .call function args => .call function (fillList args)
  | .method receiver function args =>
      match ofNode? (.method receiver function args) with
      | some _ => ofValue (value (.method receiver function args))
      | none => .method (fill receiver) function (fillList args)
  | .unary op operand => .unary op (fill operand)
  | .arithmetic op left right => .arithmetic op (fill left) (fill right)
  | .relation op left right => .relation op (fill left) (fill right)
  | .and left right => .and (fill left) (fill right)
  | .or left right => .or (fill left) (fill right)
  | .conditional condition yes no => .conditional (fill condition) (fill yes) (fill no)

def fillList : List Expression → List Expression
  | [] => []
  | e :: rest => fill e :: fillList rest

def fillEntries : List (Expression × Expression) → List (Expression × Expression)
  | [] => []
  | (key, value) :: rest => (fill key, fill value) :: fillEntries rest

end

end

variable {ctx : Context} {resolved : List (HostCall × Value)} {value : Expression → Value}
  {e e' : Expression} {name : String}

theorem fillList_eq_map (es : List Expression) : fillList value es = es.map (fill value) := by
  induction es with
  | nil => rfl
  | cons e rest ih => rw [fillList, ih, List.map_cons]

theorem fillEntries_eq_map (entries : List (Expression × Expression)) :
    fillEntries value entries =
      entries.map fun entry => (fill value entry.1, fill value entry.2) := by
  induction entries with
  | nil => rfl
  | cons entry rest ih => rw [fillEntries, ih, List.map_cons]

theorem fill_of_some {asked : String × List Expression} (h : ofNode? e = some asked) :
    fill value e = ofValue (value e) := by
  cases e with
  | member target name => rw [fill, h]
  | method receiver function args => rw [fill, h]
  | _ => cases h

theorem fill_ident_iff : fill value e = .ident name ↔ e = .ident name := by
  constructor
  · intro he
    cases e with
    | ident known => exact he
    | member target known =>
        rw [fill] at he
        split at he
        · exact absurd he (ofValue_ne_ident _)
        · cases he
    | method receiver function args =>
        rw [fill] at he
        split at he
        · exact absurd he (ofValue_ne_ident _)
        · cases he
    | _ => cases he
  · rintro rfl
    rfl

theorem ofNode?_member_fill :
    ofNode? (.member (fill value e) name) = ofNode? (.member e name) :=
  ofNode?_member_congr fun _ => fill_ident_iff

theorem ofNode?_method_fill {args args' : List Expression} :
    ofNode? (.method (fill value e) name args') =
      (ofNode? (.method e name args)).map fun asked => (asked.1, args') :=
  ofNode?_method_congr fun _ => fill_ident_iff

/-! ## No host calls are left -/

mutual

/-- The literal of a value holds no host calls. -/
theorem filterMap_nodes_ofValue : ∀ v : Value, (ofValue v).nodes.filterMap ofNode? = []
  | .null | .bool _ | .int _ | .float _ | .string _ => rfl
  | .list items => by
      rw [ofValue, nodes, List.filterMap_append, filterMap_nodes_ofItems items]
      rfl
  | .map entries => by
      rw [ofValue, nodes, List.filterMap_append, filterMap_nodes_ofEntries entries]
      rfl

theorem filterMap_nodes_ofItems : ∀ items : List Value,
    (nodesOfList (ofItems items)).filterMap ofNode? = []
  | [] => rfl
  | v :: rest => by
      rw [ofItems, nodesOfList, List.filterMap_append, filterMap_nodes_ofValue v,
        filterMap_nodes_ofItems rest]
      rfl

theorem filterMap_nodes_ofEntries : ∀ entries : List (String × Value),
    (nodesOfEntries (ofEntries entries)).filterMap ofNode? = []
  | [] => rfl
  | (key, v) :: rest => by
      rw [ofEntries, nodesOfEntries, List.filterMap_append, List.filterMap_append,
        filterMap_nodes_ofValue v, filterMap_nodes_ofEntries rest]
      rfl

end

theorem children_fill (h : ofNode? e = none) :
    (fill value e).children = e.children.map (fill value) := by
  cases e with
  | list elements => rw [fill, children, children, fillList_eq_map]
  | map entries =>
      rw [fill, children, children, fillEntries_eq_map, List.flatMap_map, List.map_flatMap]
      rfl
  | member target name => rw [fill, h, children, children, List.map_singleton]
  | call function args => rw [fill, children, children, fillList_eq_map]
  | method receiver function args =>
      rw [fill, h, children, children, fillList_eq_map, List.map_cons]
  | _ => rfl

/-- A node that is no host call is none after its children were filled. -/
theorem ofNode?_fill (h : ofNode? e = none) : ofNode? (fill value e) = none := by
  cases e with
  | member target name =>
      rw [fill, h]
      exact ofNode?_member_fill.trans h
  | method receiver function args =>
      rw [fill, h]
      exact ofNode?_method_fill.trans (congrArg _ h)
  | _ => rfl

/-- **A filled tree holds no host calls.** -/
theorem filterMap_nodes_fill (value : Expression → Value) (e : Expression) :
    (fill value e).nodes.filterMap ofNode? = [] := by
  induction e using induction_on_children with
  | h e ih =>
      cases hcall : ofNode? e with
      | some asked =>
          rw [fill_of_some hcall]
          exact filterMap_nodes_ofValue _
      | none =>
          rw [filterMap_nodes, children_fill hcall, ofNode?_fill hcall, List.flatMap_map,
            List.flatMap_eq_nil_iff.mpr ih]
          rfl

/-! ## What substitution does -/

/-- What substitution puts in the place of a host call, whose own arguments are replaced
first. -/
def answerAt (ctx : Context) (resolved : List (HostCall × Value)) (node : Expression) : Value :=
  match ofNode? node with
  | none => .null
  | some (name, args) =>
      match rebuildList (substituteNode ctx resolved) args >>= HostCall.evaluate ctx name with
      | .ok found => HostCall.answer resolved found
      | .error _ => .null

/-- If the node is a host call, it can be evaluated once its arguments are filled, and its value
is the answer to it. -/
def Answered (ctx : Context) (resolved : List (HostCall × Value)) (value : Expression → Value)
    (node : Expression) : Prop :=
  ∀ name args, ofNode? node = some (name, args) →
    ∃ call, HostCall.evaluate ctx name (args.map (fill value)) = .ok call ∧
      value node = HostCall.answer resolved call

theorem answered_of_none (h : ofNode? e = none) : Answered ctx resolved value e := by
  intro name args hcall
  cases h.symm.trans hcall

/-- A host call is replaced by its answer, once its arguments are filled. -/
theorem filled_of_some {args args' : List Expression} {node : Expression}
    {nodes : List Expression} (hcall : ofNode? e = some (name, args))
    (hcall' : ofNode? node = some (name, args'))
    (hargs : rebuildList (substituteNode ctx resolved) args = .ok args')
    (hfill : args' = args.map (fill (answerAt ctx resolved)))
    (h : substituteNode ctx resolved node = .ok e')
    (hanswered : ∀ node ∈ nodes, Answered ctx resolved (answerAt ctx resolved) node) :
    e' = fill (answerAt ctx resolved) e ∧
      ∀ node ∈ nodes ++ [e], Answered ctx resolved (answerAt ctx resolved) node := by
  rw [substituteNode, hcall'] at h
  obtain ⟨call, hevaluate, h⟩ := exists_of_bind_eq_ok h
  cases h
  have hanswer : answerAt ctx resolved e = HostCall.answer resolved call := by
    rw [answerAt, hcall]
    show (match rebuildList (substituteNode ctx resolved) args >>= HostCall.evaluate ctx name with
      | .ok found => HostCall.answer resolved found
      | .error _ => .null) = _
    rw [hargs]
    show (match HostCall.evaluate ctx name args' with
      | .ok found => HostCall.answer resolved found
      | .error _ => .null) = _
    rw [hevaluate]
  have hroot : Answered ctx resolved (answerAt ctx resolved) e := by
    intro asked others hasked
    cases hcall.symm.trans hasked
    exact ⟨call, hfill ▸ hevaluate, hanswer⟩
  refine ⟨by rw [fill_of_some hcall, hanswer], List.forall_mem_append.mpr ⟨hanswered, ?_⟩⟩
  exact List.forall_mem_singleton.mpr hroot

/-- A node that is no host call stays, with its children filled. -/
theorem filled_of_none {node : Expression} {nodes : List Expression}
    (hnone : ofNode? e = none) (hfill : fill (answerAt ctx resolved) e = node)
    (h : substituteNode ctx resolved node = .ok e')
    (hanswered : ∀ node ∈ nodes, Answered ctx resolved (answerAt ctx resolved) node) :
    e' = fill (answerAt ctx resolved) e ∧
      ∀ node ∈ nodes ++ [e], Answered ctx resolved (answerAt ctx resolved) node := by
  subst hfill
  rw [substituteNode_of_none (ofNode?_fill hnone)] at h
  cases h
  exact ⟨rfl, List.forall_mem_append.mpr
    ⟨hanswered, List.forall_mem_singleton.mpr (answered_of_none hnone)⟩⟩

mutual

/-- **Substitution fills in answers**, and every host call in the tree has one. -/
theorem fill_of_rebuild : ∀ {e e' : Expression},
    e.rebuild (substituteNode ctx resolved) = .ok e' →
      e' = fill (answerAt ctx resolved) e ∧
        ∀ node ∈ e.nodes, Answered ctx resolved (answerAt ctx resolved) node
  | .literal _, _, h | .ident _, _, h => by
      cases h
      exact ⟨rfl, List.forall_mem_singleton.mpr (answered_of_none rfl)⟩
  | .list elements, _, h => by
      obtain ⟨elements', helements, h⟩ := exists_of_bind_eq_ok h
      obtain ⟨rfl, hanswered⟩ := fillList_of_rebuild helements
      exact filled_of_none rfl rfl h hanswered
  | .map entries, _, h => by
      obtain ⟨entries', hentries, h⟩ := exists_of_bind_eq_ok h
      obtain ⟨rfl, hanswered⟩ := fillEntries_of_rebuild hentries
      exact filled_of_none rfl rfl h hanswered
  | .member target name, _, h => by
      obtain ⟨target', htarget, hroot⟩ := exists_of_bind_eq_ok h
      obtain ⟨rfl, hanswered⟩ := fill_of_rebuild htarget
      cases hcall : ofNode? (.member target name) with
      | none => exact filled_of_none hcall (by rw [fill, hcall]) hroot hanswered
      | some found =>
          obtain ⟨asked, args⟩ := found
          obtain ⟨-, rfl, -⟩ := ofNode?_member_some hcall
          exact filled_of_some hcall (ofNode?_member_fill.trans hcall) rfl rfl hroot hanswered
  | .index target position, _, h => by
      obtain ⟨target', htarget, h⟩ := exists_of_bind_eq_ok h
      obtain ⟨position', hposition, h⟩ := exists_of_bind_eq_ok h
      obtain ⟨rfl, hanswered⟩ := fill_of_rebuild htarget
      obtain ⟨rfl, hanswered'⟩ := fill_of_rebuild hposition
      exact filled_of_none rfl rfl h (List.forall_mem_append.mpr ⟨hanswered, hanswered'⟩)
  | .call function args, _, h => by
      obtain ⟨args', hargs, h⟩ := exists_of_bind_eq_ok h
      obtain ⟨rfl, hanswered⟩ := fillList_of_rebuild hargs
      exact filled_of_none rfl rfl h hanswered
  | .method receiver function args, _, h => by
      obtain ⟨receiver', hreceiver, hmore⟩ := exists_of_bind_eq_ok h
      obtain ⟨args', hargs, hroot⟩ := exists_of_bind_eq_ok hmore
      obtain ⟨rfl, hanswered⟩ := fill_of_rebuild hreceiver
      obtain ⟨hfill, hanswered'⟩ := fillList_of_rebuild hargs
      have hchildren := List.forall_mem_append.mpr ⟨hanswered, hanswered'⟩
      cases hcall : ofNode? (.method receiver function args) with
      | none => exact filled_of_none hcall (by rw [fill, hcall, hfill]) hroot hchildren
      | some found =>
          obtain ⟨asked, others⟩ := found
          obtain ⟨rfl, rfl, -⟩ := ofNode?_method_some hcall
          -- The call is looked at with its arguments filled, and is still the same call.
          rw [fillList_eq_map] at hfill
          exact filled_of_some hcall (ofNode?_method_fill.trans (congrArg _ hcall)) hargs hfill
            hroot hchildren
  | .unary op operand, _, h => by
      obtain ⟨operand', hoperand, h⟩ := exists_of_bind_eq_ok h
      obtain ⟨rfl, hanswered⟩ := fill_of_rebuild hoperand
      exact filled_of_none rfl rfl h hanswered
  | .arithmetic op left right, _, h | .relation op left right, _, h | .and left right, _, h
  | .or left right, _, h => by
      obtain ⟨left', hleft, h⟩ := exists_of_bind_eq_ok h
      obtain ⟨right', hright, h⟩ := exists_of_bind_eq_ok h
      obtain ⟨rfl, hanswered⟩ := fill_of_rebuild hleft
      obtain ⟨rfl, hanswered'⟩ := fill_of_rebuild hright
      exact filled_of_none rfl rfl h (List.forall_mem_append.mpr ⟨hanswered, hanswered'⟩)
  | .conditional condition yes no, _, h => by
      obtain ⟨condition', hcondition, h⟩ := exists_of_bind_eq_ok h
      obtain ⟨yes', hyes, h⟩ := exists_of_bind_eq_ok h
      obtain ⟨no', hno, h⟩ := exists_of_bind_eq_ok h
      obtain ⟨rfl, hanswered⟩ := fill_of_rebuild hcondition
      obtain ⟨rfl, hanswered'⟩ := fill_of_rebuild hyes
      obtain ⟨rfl, hanswered''⟩ := fill_of_rebuild hno
      have hbranches := List.forall_mem_append.mpr ⟨hanswered, hanswered'⟩
      exact filled_of_none rfl rfl h (List.forall_mem_append.mpr ⟨hbranches, hanswered''⟩)

theorem fillList_of_rebuild : ∀ {es es' : List Expression},
    rebuildList (substituteNode ctx resolved) es = .ok es' →
      es' = fillList (answerAt ctx resolved) es ∧
        ∀ node ∈ nodesOfList es, Answered ctx resolved (answerAt ctx resolved) node
  | [], _, h => by
      cases h
      exact ⟨rfl, nofun⟩
  | e :: rest, _, h => by
      obtain ⟨e', he, h⟩ := exists_of_bind_eq_ok h
      obtain ⟨rest', hrest, h⟩ := exists_of_bind_eq_ok h
      cases h
      obtain ⟨rfl, hanswered⟩ := fill_of_rebuild he
      obtain ⟨rfl, hanswered'⟩ := fillList_of_rebuild hrest
      exact ⟨rfl, List.forall_mem_append.mpr ⟨hanswered, hanswered'⟩⟩

theorem fillEntries_of_rebuild : ∀ {entries entries' : List (Expression × Expression)},
    rebuildEntries (substituteNode ctx resolved) entries = .ok entries' →
      entries' = fillEntries (answerAt ctx resolved) entries ∧
        ∀ node ∈ nodesOfEntries entries, Answered ctx resolved (answerAt ctx resolved) node
  | [], _, h => by
      cases h
      exact ⟨rfl, nofun⟩
  | (key, value) :: rest, _, h => by
      obtain ⟨key', hkey, h⟩ := exists_of_bind_eq_ok h
      obtain ⟨value', hvalue, h⟩ := exists_of_bind_eq_ok h
      obtain ⟨rest', hrest, h⟩ := exists_of_bind_eq_ok h
      cases h
      obtain ⟨rfl, hanswered⟩ := fill_of_rebuild hkey
      obtain ⟨rfl, hanswered'⟩ := fill_of_rebuild hvalue
      obtain ⟨rfl, hanswered''⟩ := fillEntries_of_rebuild hrest
      exact ⟨rfl, List.forall_mem_append.mpr
        ⟨List.forall_mem_append.mpr ⟨hanswered, hanswered'⟩, hanswered''⟩⟩

end

/-- **Substitution is complete and stable.**  What it leaves holds no host calls, and is left as
it is when answers are substituted again.  It is the tree with its outermost host calls filled;
every host call in the tree, also inside another one, can be evaluated once those in its
arguments are filled, and is filled with the literal of its answer, whose value is the answer in
every context. -/
theorem substitute_fills (hresolved : ∀ entry ∈ resolved, entry.2.Canonical)
    (h : e.substitute ctx resolved = .ok e') :
    (occursIn e' = false ∧ ∀ ctx' : Context, e'.hostCalls ctx' = .ok []) ∧
    (∀ (ctx' : Context) (others : List (HostCall × Value)),
      e'.substitute ctx' others = .ok e') ∧
    ∃ value : Expression → Value, e' = e.fill value ∧
      ∀ node ∈ e.nodes, ∀ name args, ofNode? node = some (name, args) →
        (∃ call, HostCall.evaluate ctx name (args.map (fill value)) = .ok call ∧
          value node = HostCall.answer resolved call) ∧
        ∀ ctx' : Context, (ofValue (value node)).eval ctx' = .ok (value node) := by
  obtain ⟨rfl, hanswered⟩ := fill_of_rebuild h
  have hnone := filterMap_nodes_fill (answerAt ctx resolved) e
  refine ⟨⟨?_, fun ctx' => ?_⟩, fun ctx' others => ?_, answerAt ctx resolved, rfl,
    fun node hnode name args hcall => ?_⟩
  · rw [occursIn_eq, hnone]
    rfl
  · rw [hostCalls, hnone]
    rfl
  · refine rebuild_eq_self _ fun node hnode => substituteNode_of_none ?_
    exact List.filterMap_eq_nil_iff.mp hnone node hnode
  · obtain ⟨call, hevaluate, hvalue⟩ := hanswered node hnode name args hcall
    refine ⟨⟨call, hevaluate, hvalue⟩, fun ctx' => eval_ofValue ctx' _ ?_⟩
    rw [hvalue]
    exact canonical_answer hresolved call

/-- One host call in the argument of another, which is answered by a map. -/
theorem substitute_fills_nested :
    ∃ (e e' : Expression) (resolved : List (HostCall × Value)),
      e = .index (.method (.ident "platform") "last" [.member (.ident "computed") "plan"])
        (.literal (.string "n")) ∧
      resolved = [(⟨"plan", []⟩, .string "basic"),
        (⟨"last", [.string "basic"]⟩, .map [("n", .int 1)])] ∧
      e.substitute .empty resolved = .ok e' ∧
      (occursIn e' = false ∧ ∀ ctx' : Context, e'.hostCalls ctx' = .ok []) ∧
      (∀ (ctx' : Context) (others : List (HostCall × Value)),
        e'.substitute ctx' others = .ok e') ∧
      ∃ value : Expression → Value, e' = e.fill value := by
  have hsubstitute : substitute .empty
      [(⟨"plan", []⟩, .string "basic"), (⟨"last", [.string "basic"]⟩, .map [("n", .int 1)])]
      (.index (.method (.ident "platform") "last" [.member (.ident "computed") "plan"])
        (.literal (.string "n"))) =
      .ok (.index (.map [(.literal (.string "n"), .literal (.int 1))])
        (.literal (.string "n"))) := by
    rfl
  have hcanonical : ∀ entry ∈ [((⟨"plan", []⟩ : HostCall), Value.string "basic"),
      (⟨"last", [.string "basic"]⟩, .map [("n", .int 1)])], entry.2.Canonical :=
    List.forall_mem_cons.mpr ⟨trivial, List.forall_mem_singleton.mpr
      ⟨List.pairwise_singleton _ _, trivial, trivial⟩⟩
  obtain ⟨hcomplete, hstable, value, hvalue, -⟩ := substitute_fills hcanonical hsubstitute
  exact ⟨_, _, _, rfl, rfl, hsubstitute, hcomplete, hstable, value, hvalue⟩

end Expression
end Placement
