import Placement.Expression.Traversal
import Placement.Expression.Wire
import Placement.Proofs.Wire.Documents
import Placement.Proofs.Wire.Doubles
/-! # Trees come back from their documents

A tree can be stored if all doubles in it are finite (`Expression.Storable`); any other
double is written as `null`, which is no double.  **A tree that can be stored is read back as
it was** (`Expression.decode?_toJson`), at the top of a document and inside a larger one.
The reader makes no other trees (`Expression.storable_of_decode?`), even where a whole number
stands for a double.
-/
namespace Placement

/-! ## Literals -/

namespace Literal

/-- A literal that is not an infinite or undefined double. -/
def Storable : Literal → Prop
  | .float x => x.isFinite = true
  | _ => True

theorem decode?_toJson {l : Literal} (h : l.Storable) : decode? l.toJson = some l := by
  cases l with
  | null => simp [decode?, toJson, Json.field?_ofFields, nodeName?, Json.name?]
  | bool b => simp [decode?, toJson, Json.field?_ofFields, nodeName?, Json.name?]
  | int n => simp [decode?, toJson, Json.field?_ofFields, nodeName?, Json.name?, Value.int64?_toInt]
  | float x =>
      have hx : Json.ofFloat x = .float ⟨x, h⟩ := dif_pos h
      simp [decode?, toJson, Json.field?_ofFields, nodeName?, Json.name?, hx]
  | string s => simp [decode?, toJson, Json.field?_ofFields, nodeName?, Json.name?]

theorem sized_of_tagged? {j t : Json} (hj : j.Sized) (h : tagged? j = some t) : t.Sized := by
  unfold tagged? at h
  split at h
  · cases h
  · cases h
  · exact hj.record? h

theorem storable_of_decode? {j : Json} {l : Literal} (hj : j.Sized) (h : decode? j = some l) :
    l.Storable := by
  obtain ⟨t, ht, h⟩ := Option.bind_eq_some_iff.mp h
  obtain ⟨type, htype, h⟩ := Option.bind_eq_some_iff.mp h
  obtain ⟨name, hname, h⟩ := Option.bind_eq_some_iff.mp h
  have hsized := sized_of_tagged? hj ht
  split at h
  case h_5 n hvalue =>
    obtain ⟨hlow, hhigh⟩ := hsized.field? hvalue
    cases h
    exact isFinite_ofInt hlow hhigh
  case h_6 x hvalue =>
    cases h
    exact x.finite
  case h_4 n hvalue =>
    obtain ⟨i, -, rfl⟩ := Option.map_eq_some_iff.mp h
    trivial
  all_goals
    cases h
    try trivial

end Literal

namespace Expression

/-- All doubles in the tree are finite. -/
def Storable (e : Expression) : Prop := ∀ l, .literal l ∈ e.nodes → l.Storable

theorem Storable.of_mem_children {e child : Expression} (h : e.Storable)
    (hchild : child ∈ e.children) : child.Storable := by
  intro l hl
  refine h l ?_
  rw [nodes_eq]
  exact List.mem_append_left _ (List.mem_flatMap.mpr ⟨child, hchild, hl⟩)

theorem storable_of_children {e : Expression} (hroot : ∀ l, e = .literal l → l.Storable)
    (h : ∀ child ∈ e.children, child.Storable) : e.Storable := by
  intro l hl
  rw [nodes_eq] at hl
  rcases List.mem_append.mp hl with hl | hl
  · obtain ⟨child, hchild, hl⟩ := List.mem_flatMap.mp hl
    exact h child hchild l hl
  · exact hroot l (List.mem_singleton.mp hl).symm

/-! ## Reading what was written -/

theorem tag?_toJson (e : Expression) : tag? e.toJson = some (.string e.kind) := by
  have htype : e.toJson.field? "type" = some (.string e.kind) := by
    cases e <;> simp [toJson, kind, Json.field?_ofFields]
  cases e <;> exact htype

/-- The first thing that is read of a tree is its kind. -/
theorem bind_kind {α : Type} (nested : Bool) (e : Expression) (f : String → Option α) :
    (tag? e.toJson >>= fun type => kind? nested type >>= f) = f e.kind := by
  rw [tag?_toJson]
  rfl

/-- A tree is written as an object, so its parts are fields. -/
theorem nodePart?_toJson (kind : String) {e : Expression} {name : String} {x : Json}
    (h : e.toJson.field? name = some x) :
    ∃ hx, nodePart? kind e.toJson name = some ⟨x, hx⟩ := by
  have hrecord : e.toJson.record? (fieldNames kind) = some e.toJson := by
    cases e <;> rfl
  exact Json.part?_of_field? (Option.bind_eq_some_iff.mpr ⟨_, hrecord, h⟩)

theorem toJson_ne_null (e : Expression) : e.toJson ≠ .null := by
  cases e <;> simp [toJson, Json.ofFields]

/-- An operator is read back from its name. -/
theorem bind_operator {α β : Type} (kind : String) {e : Expression} {name : String} {op : α}
    {ofWireName? : String → Option α} (hop : e.toJson.field? "op" = some (.string name))
    (hname : ofWireName? name = some op) (f : α → Option β) :
    (do
      let ⟨op, _⟩ ← nodePart? kind e.toJson "op"
      f (← ofWireName? (← nodeName? op))) = f op := by
  obtain ⟨_, hop⟩ := nodePart?_toJson kind hop
  simp [hop, nodeName?, Json.name?, hname]

/-- The trees of an operator are read back, if each of them is. -/
theorem decode_operands (kind : String) {e left right : Expression}
    (f : Expression → Expression → Expression)
    (hfirst : e.toJson.field? "left" = some left.toJson)
    (hsecond : e.toJson.field? "right" = some right.toJson)
    (hleft : decode? true left.toJson = some left)
    (hright : decode? true right.toJson = some right) :
    (do
      let ⟨left, _⟩ ← nodePart? kind e.toJson "left"
      let ⟨right, _⟩ ← nodePart? kind e.toJson "right"
      return f (← decode? true left) (← decode? true right)) = some (f left right) := by
  obtain ⟨_, hfirst⟩ := nodePart?_toJson kind hfirst
  obtain ⟨_, hsecond⟩ := nodePart?_toJson kind hsecond
  simp [hfirst, hsecond, hleft, hright]

/-- The name of a member and what it holds are read back. -/
theorem part?_step (type : String) (value : Json) :
    let step := Json.ofFields [("type", .string type), ("value", value)]
    ∃ htype hvalue, step.part? ["type", "value"] "type" = some ⟨.string type, htype⟩ ∧
      step.part? ["type", "value"] "value" = some ⟨value, hvalue⟩ := by
  intro step
  have hfirst : step.field? "type" = some (.string type) := by
    simp [step, Json.field?_ofFields]
  have hsecond : step.field? "value" = some value := by
    simp [step, Json.field?_ofFields]
  obtain ⟨htype, hfirst⟩ := Json.part?_ofFields ["type", "value"] hfirst
  obtain ⟨hvalue, hsecond⟩ := Json.part?_ofFields ["type", "value"] hsecond
  exact ⟨htype, hvalue, hfirst, hsecond⟩

mutual

/-- **A tree whose doubles are finite is read back as it was.** -/
theorem decode?_toJson : ∀ (nested : Bool) (e : Expression), e.Storable →
    decode? nested e.toJson = some e
  | nested, .literal l, h => by
      have hl : l.Storable := h l (by simp [nodes])
      have hvalue : (literal l).toJson.field? "value" = some l.toJson := by
        simp [toJson, Json.field?_ofFields]
      obtain ⟨_, hvalue⟩ := nodePart?_toJson "atom" hvalue
      rw [decode?, bind_kind, kind]
      simp [hvalue, Literal.decode?_toJson hl]
  | nested, .ident name, _ => by
      have hname : (ident name).toJson.field? "name" = some (.string name) := by
        simp [toJson, Json.field?_ofFields]
      obtain ⟨_, hname⟩ := nodePart?_toJson "ident" hname
      rw [decode?, bind_kind, kind]
      simp [hname, Json.string?]
  | nested, .list elements, h => by
      have helements : (list elements).toJson.field? "elements" =
          some (.array (toJsonItems elements)) := by
        simp [toJson, Json.field?_ofFields]
      obtain ⟨_, hpart⟩ := nodePart?_toJson "list" helements
      have hitems := decodeItems?_toJsonItems elements fun e he => h.of_mem_children he
      rw [decode?, bind_kind, kind]
      simp [hpart, decodeArray?, hitems]
  | nested, .map entries, h => by
      have hentries : (map entries).toJson.field? "entries" =
          some (.array (toJsonEntries entries)) := by
        simp [toJson, Json.field?_ofFields]
      obtain ⟨_, hpart⟩ := nodePart?_toJson "map" hentries
      have hpairs := decodePairs?_toJsonEntries entries fun entry hentry => by
        constructor <;>
          exact h.of_mem_children (List.mem_flatMap.mpr ⟨entry, hentry, by simp⟩)
      rw [decode?, bind_kind, kind]
      simp [hpart, decodeEntries?, hpairs]
  | nested, .member target name, h => by
      have htarget := decode?_toJson true target (h.of_mem_children (by simp [children]))
      have hexpr : (member target name).toJson.field? "expr" = some target.toJson := by
        simp [toJson, Json.field?_ofFields]
      have hmember : (member target name).toJson.field? "member" =
          some (Json.ofFields [("type", .string "Attribute"), ("value", .string name)]) := by
        simp [toJson, Json.field?_ofFields]
      obtain ⟨_, hexpr⟩ := nodePart?_toJson "member" hexpr
      obtain ⟨_, hmember⟩ := nodePart?_toJson "member" hmember
      obtain ⟨_, _, htype, hvalue⟩ := part?_step "Attribute" (.string name)
      rw [decode?, bind_kind, kind]
      simp [hexpr, htarget, hmember, htype, nodeName?, Json.name?, hvalue, Json.string?]
  | nested, .index target position, h => by
      have htarget := decode?_toJson true target (h.of_mem_children (by simp [children]))
      have hposition := decode?_toJson true position (h.of_mem_children (by simp [children]))
      have hexpr : (index target position).toJson.field? "expr" = some target.toJson := by
        simp [toJson, Json.field?_ofFields]
      have hmember : (index target position).toJson.field? "member" =
          some (Json.ofFields [("type", .string "Index"), ("value", position.toJson)]) := by
        simp [toJson, Json.field?_ofFields]
      obtain ⟨_, hexpr⟩ := nodePart?_toJson "member" hexpr
      obtain ⟨_, hmember⟩ := nodePart?_toJson "member" hmember
      obtain ⟨_, _, htype, hvalue⟩ := part?_step "Index" position.toJson
      rw [decode?, bind_kind, kind]
      simp [hexpr, htarget, hmember, htype, nodeName?, Json.name?, hvalue, hposition]
  | nested, .call function args, h => by
      have hitems := decodeItems?_toJsonItems args fun e he => h.of_mem_children he
      have hfunction : (call function args).toJson.field? "function" = some (.string function) := by
        simp [toJson, Json.field?_ofFields]
      have hargs : (call function args).toJson.field? "args" =
          some (.array (toJsonItems args)) := by
        simp [toJson, Json.field?_ofFields]
      have hreceiver : (call function args).toJson.field? "receiver" = some .null := by
        simp [toJson, Json.field?_ofFields]
      obtain ⟨_, hfunction⟩ := nodePart?_toJson "functionCall" hfunction
      obtain ⟨_, hargs⟩ := nodePart?_toJson "functionCall" hargs
      obtain ⟨_, hreceiver⟩ := nodePart?_toJson "functionCall" hreceiver
      rw [decode?, bind_kind, kind]
      simp [hfunction, Json.string?, hargs, decodeArray?, hitems, hreceiver]
  | nested, .method receiver function args, h => by
      have htarget := decode?_toJson true receiver (h.of_mem_children (by simp [children]))
      have hitems := decodeItems?_toJsonItems args fun e he =>
        h.of_mem_children (List.mem_cons_of_mem receiver he)
      have hfunction : (method receiver function args).toJson.field? "function" =
          some (.string function) := by
        simp [toJson, Json.field?_ofFields]
      have hargs : (method receiver function args).toJson.field? "args" =
          some (.array (toJsonItems args)) := by
        simp [toJson, Json.field?_ofFields]
      have hreceiver : (method receiver function args).toJson.field? "receiver" =
          some receiver.toJson := by
        simp [toJson, Json.field?_ofFields]
      obtain ⟨_, hfunction⟩ := nodePart?_toJson "functionCall" hfunction
      obtain ⟨_, hargs⟩ := nodePart?_toJson "functionCall" hargs
      obtain ⟨_, hreceiver⟩ := nodePart?_toJson "functionCall" hreceiver
      rw [decode?, bind_kind, kind]
      simp only [Option.bind_eq_bind, Option.bind_some, hfunction, Json.string?, hargs,
        decodeArray?, hitems, hreceiver]
      split
      · rename_i hnone
        cases hnone
      · rename_i hnull
        exact absurd (congrArg Subtype.val (Option.some.inj hnull)) (toJson_ne_null receiver)
      · rename_i found _ _ hfound
        cases hfound
        rw [htarget]
        rfl
  | nested, .unary op operand, h => by
      have hoperand := decode?_toJson true operand (h.of_mem_children (by simp [children]))
      have hop : (unary op operand).toJson.field? "op" = some (.string op.wireName) := by
        simp [toJson, Json.field?_ofFields]
      have hexpr : (unary op operand).toJson.field? "expr" = some operand.toJson := by
        simp [toJson, Json.field?_ofFields]
      obtain ⟨_, hpart⟩ := nodePart?_toJson "unary" hexpr
      rw [decode?, bind_kind, kind]
      refine (bind_operator "unary" hop (PrefixOp.ofWireName?_wireName op) _).trans ?_
      simp [hpart, hoperand]
  | nested, .arithmetic op left right, h => by
      have hleft := decode?_toJson true left (h.of_mem_children (by simp [children]))
      have hright := decode?_toJson true right (h.of_mem_children (by simp [children]))
      have hop : (arithmetic op left right).toJson.field? "op" = some (.string op.wireName) := by
        simp [toJson, Json.field?_ofFields]
      rw [decode?, bind_kind, kind]
      refine (bind_operator "arithmetic" hop (Arithmetic.ofWireName?_wireName op) _).trans ?_
      exact decode_operands "arithmetic" (.arithmetic op) (by simp [toJson, Json.field?_ofFields])
        (by simp [toJson, Json.field?_ofFields]) hleft hright
  | nested, .relation op left right, h => by
      have hleft := decode?_toJson true left (h.of_mem_children (by simp [children]))
      have hright := decode?_toJson true right (h.of_mem_children (by simp [children]))
      have hop : (relation op left right).toJson.field? "op" = some (.string op.wireName) := by
        simp [toJson, Json.field?_ofFields]
      rw [decode?, bind_kind, kind]
      refine (bind_operator "relation" hop (Comparison.ofWireName?_wireName op) _).trans ?_
      exact decode_operands "relation" (.relation op) (by simp [toJson, Json.field?_ofFields])
        (by simp [toJson, Json.field?_ofFields]) hleft hright
  | nested, .and left right, h => by
      have hleft := decode?_toJson true left (h.of_mem_children (by simp [children]))
      have hright := decode?_toJson true right (h.of_mem_children (by simp [children]))
      rw [decode?, bind_kind, kind]
      exact decode_operands "and" .and (by simp [toJson, Json.field?_ofFields])
        (by simp [toJson, Json.field?_ofFields]) hleft hright
  | nested, .or left right, h => by
      have hleft := decode?_toJson true left (h.of_mem_children (by simp [children]))
      have hright := decode?_toJson true right (h.of_mem_children (by simp [children]))
      rw [decode?, bind_kind, kind]
      exact decode_operands "or" .or (by simp [toJson, Json.field?_ofFields])
        (by simp [toJson, Json.field?_ofFields]) hleft hright
  | nested, .conditional condition yes no, h => by
      have hcondition := decode?_toJson true condition (h.of_mem_children (by simp [children]))
      have hyes := decode?_toJson true yes (h.of_mem_children (by simp [children]))
      have hno := decode?_toJson true no (h.of_mem_children (by simp [children]))
      have hfirst : (conditional condition yes no).toJson.field? "condition" =
          some condition.toJson := by
        simp [toJson, Json.field?_ofFields]
      have hsecond : (conditional condition yes no).toJson.field? "then" = some yes.toJson := by
        simp [toJson, Json.field?_ofFields]
      have hthird : (conditional condition yes no).toJson.field? "otherwise" =
          some no.toJson := by
        simp [toJson, Json.field?_ofFields]
      obtain ⟨_, hfirst⟩ := nodePart?_toJson "ternary" hfirst
      obtain ⟨_, hsecond⟩ := nodePart?_toJson "ternary" hsecond
      obtain ⟨_, hthird⟩ := nodePart?_toJson "ternary" hthird
      rw [decode?, bind_kind, kind]
      simp [hfirst, hsecond, hthird, hcondition, hyes, hno]

theorem decodeItems?_toJsonItems : ∀ es : List Expression, (∀ e ∈ es, e.Storable) →
    decodeItems? (toJsonItems es) = some es
  | [], _ => by rw [toJsonItems, decodeItems?]
  | e :: rest, h => by
      have he := decode?_toJson true e (h e List.mem_cons_self)
      have hrest := decodeItems?_toJsonItems rest fun e he => h e (List.mem_cons_of_mem _ he)
      rw [toJsonItems, decodeItems?, he, hrest]
      rfl

theorem decodePairs?_toJsonEntries : ∀ entries : List (Expression × Expression),
    (∀ entry ∈ entries, entry.1.Storable ∧ entry.2.Storable) →
    decodePairs? (toJsonEntries entries) = some entries
  | [], _ => by rw [toJsonEntries, decodePairs?]
  | (key, value) :: rest, h => by
      obtain ⟨hkey, hvalue⟩ := h (key, value) List.mem_cons_self
      have hrest := decodePairs?_toJsonEntries rest fun e he => h e (List.mem_cons_of_mem _ he)
      rw [toJsonEntries, decodePairs?, decode?_toJson true key hkey,
        decode?_toJson true value hvalue, hrest]
      rfl

end

/-! ## Only finite doubles are read -/

theorem sized_of_nodePart? {kind name : String} {j : Json}
    {x : { x : Json // sizeOf x < sizeOf j }} (hj : j.Sized)
    (h : nodePart? kind j name = some x) : x.val.Sized :=
  hj.part? h

/-- The two trees of an operator come from two parts of its document. -/
theorem operands_of_parts {kind : String} {j : Json} {e : Expression}
    {f : Expression → Expression → Expression}
    (h : (do
      let ⟨left, _⟩ ← nodePart? kind j "left"
      let ⟨right, _⟩ ← nodePart? kind j "right"
      return f (← decode? true left) (← decode? true right)) = some e) :
    ∃ left right : { x : Json // sizeOf x < sizeOf j }, ∃ l r : Expression,
      nodePart? kind j "left" = some left ∧ decode? true left.val = some l ∧
      nodePart? kind j "right" = some right ∧ decode? true right.val = some r ∧ e = f l r := by
  obtain ⟨left, hleft, h⟩ := Option.bind_eq_some_iff.mp h
  obtain ⟨right, hright, h⟩ := Option.bind_eq_some_iff.mp h
  obtain ⟨l, hl, h⟩ := Option.bind_eq_some_iff.mp h
  obtain ⟨r, hr, h⟩ := Option.bind_eq_some_iff.mp h
  exact ⟨left, right, l, r, hleft, hl, hright, hr, (Option.some.inj h).symm⟩

mutual

/-- **A tree that was read can be stored.** -/
theorem storable_of_decode? (nested : Bool) (j : Json) {e : Expression} (hj : j.Sized)
    (h : decode? nested j = some e) : e.Storable := by
  rw [decode?] at h
  obtain ⟨type, -, h⟩ := Option.bind_eq_some_iff.mp h
  obtain ⟨kind, -, h⟩ := Option.bind_eq_some_iff.mp h
  -- one case for each name in `kinds`, in that order
  split at h
  case h_1 =>
    obtain ⟨value, hvalue, h⟩ := Option.bind_eq_some_iff.mp h
    obtain ⟨l, hl, h⟩ := Option.bind_eq_some_iff.mp h
    cases h
    have hstorable := Literal.storable_of_decode? (sized_of_nodePart? hj hvalue) hl
    refine storable_of_children (fun l' hl' => ?_) nofun
    cases hl'
    exact hstorable
  case h_2 =>
    obtain ⟨value, -, h⟩ := Option.bind_eq_some_iff.mp h
    obtain ⟨name, -, h⟩ := Option.bind_eq_some_iff.mp h
    cases h
    exact storable_of_children nofun nofun
  case h_3 =>
    obtain ⟨⟨elements, hsize⟩, hpart, h⟩ := Option.bind_eq_some_iff.mp h
    obtain ⟨es, hes, h⟩ := Option.bind_eq_some_iff.mp h
    cases h
    have helements := storable_of_decodeArray? elements (sized_of_nodePart? hj hpart) hes
    exact storable_of_children nofun helements
  case h_4 =>
    obtain ⟨⟨entries, hsize⟩, hpart, h⟩ := Option.bind_eq_some_iff.mp h
    obtain ⟨pairs, hpairs, h⟩ := Option.bind_eq_some_iff.mp h
    cases h
    have hentries := storable_of_decodeEntries? entries (sized_of_nodePart? hj hpart) hpairs
    exact storable_of_children nofun hentries
  case h_5 =>
    obtain ⟨⟨expr, hsize⟩, hexpr, h⟩ := Option.bind_eq_some_iff.mp h
    obtain ⟨target, htarget, h⟩ := Option.bind_eq_some_iff.mp h
    obtain ⟨⟨step, hstepsize⟩, hstep, h⟩ := Option.bind_eq_some_iff.mp h
    obtain ⟨type, -, h⟩ := Option.bind_eq_some_iff.mp h
    obtain ⟨⟨value, hvaluesize⟩, hvalue, h⟩ := Option.bind_eq_some_iff.mp h
    obtain ⟨name, -, h⟩ := Option.bind_eq_some_iff.mp h
    have hsmaller : sizeOf value < sizeOf j := Nat.lt_trans hvaluesize hstepsize
    have htarget := storable_of_decode? true expr (sized_of_nodePart? hj hexpr) htarget
    have hsized := (sized_of_nodePart? hj hstep).part? hvalue
    split at h
    · obtain ⟨member, -, h⟩ := Option.bind_eq_some_iff.mp h
      cases h
      exact storable_of_children nofun (List.forall_mem_singleton.mpr htarget)
    · obtain ⟨position, hposition, h⟩ := Option.bind_eq_some_iff.mp h
      cases h
      have hposition := storable_of_decode? true value hsized hposition
      exact storable_of_children nofun
        (List.forall_mem_cons.mpr ⟨htarget, List.forall_mem_singleton.mpr hposition⟩)
    · cases h
  case h_6 =>
    obtain ⟨name, -, h⟩ := Option.bind_eq_some_iff.mp h
    obtain ⟨function, -, h⟩ := Option.bind_eq_some_iff.mp h
    have hcall : ∀ args : List Expression, (∀ e ∈ args, e.Storable) →
        (match nodePart? "functionCall" j "receiver" with
          | none => some (call function args)
          | some ⟨.null, _⟩ => some (call function args)
          | some ⟨receiver, _⟩ => do
              return .method (← decode? true receiver) function args) = some e → e.Storable := by
      intro args hargs h
      split at h
      · cases h
        exact storable_of_children nofun hargs
      · cases h
        exact storable_of_children nofun hargs
      · rename_i found hsize _ hpart
        obtain ⟨receiver, hreceiver, h⟩ := Option.bind_eq_some_iff.mp h
        cases h
        have hreceiver := storable_of_decode? true found (sized_of_nodePart? hj hpart) hreceiver
        exact storable_of_children nofun (List.forall_mem_cons.mpr ⟨hreceiver, hargs⟩)
    dsimp only at h
    split at h
    · exact hcall [] nofun h
    · rename_i found hsize hpart
      obtain ⟨args, hargs, h⟩ := Option.bind_eq_some_iff.mp h
      exact hcall args (storable_of_decodeArray? found (sized_of_nodePart? hj hpart) hargs) h
  case h_7 =>
    obtain ⟨type, -, h⟩ := Option.bind_eq_some_iff.mp h
    obtain ⟨name, -, h⟩ := Option.bind_eq_some_iff.mp h
    obtain ⟨op, -, h⟩ := Option.bind_eq_some_iff.mp h
    obtain ⟨⟨expr, hsize⟩, hpart, h⟩ := Option.bind_eq_some_iff.mp h
    obtain ⟨operand, hoperand, h⟩ := Option.bind_eq_some_iff.mp h
    cases h
    have hoperand := storable_of_decode? true expr (sized_of_nodePart? hj hpart) hoperand
    exact storable_of_children nofun (List.forall_mem_singleton.mpr hoperand)
  case h_8 =>
    obtain ⟨type, -, h⟩ := Option.bind_eq_some_iff.mp h
    obtain ⟨name, -, h⟩ := Option.bind_eq_some_iff.mp h
    obtain ⟨op, -, h⟩ := Option.bind_eq_some_iff.mp h
    obtain ⟨⟨left, hlt⟩, ⟨right, hlt'⟩, l, r, hleft, hl, hright, hr, rfl⟩ := operands_of_parts h
    exact storable_of_children nofun <| List.forall_mem_cons.mpr
      ⟨storable_of_decode? true left (sized_of_nodePart? hj hleft) hl, List.forall_mem_singleton.mpr
        (storable_of_decode? true right (sized_of_nodePart? hj hright) hr)⟩
  case h_9 =>
    obtain ⟨type, -, h⟩ := Option.bind_eq_some_iff.mp h
    obtain ⟨name, -, h⟩ := Option.bind_eq_some_iff.mp h
    obtain ⟨op, -, h⟩ := Option.bind_eq_some_iff.mp h
    obtain ⟨⟨left, hlt⟩, ⟨right, hlt'⟩, l, r, hleft, hl, hright, hr, rfl⟩ := operands_of_parts h
    exact storable_of_children nofun <| List.forall_mem_cons.mpr
      ⟨storable_of_decode? true left (sized_of_nodePart? hj hleft) hl, List.forall_mem_singleton.mpr
        (storable_of_decode? true right (sized_of_nodePart? hj hright) hr)⟩
  case h_10 =>
    obtain ⟨⟨left, hlt⟩, ⟨right, hlt'⟩, l, r, hleft, hl, hright, hr, rfl⟩ := operands_of_parts h
    exact storable_of_children nofun <| List.forall_mem_cons.mpr
      ⟨storable_of_decode? true left (sized_of_nodePart? hj hleft) hl, List.forall_mem_singleton.mpr
        (storable_of_decode? true right (sized_of_nodePart? hj hright) hr)⟩
  case h_11 =>
    obtain ⟨⟨left, hlt⟩, ⟨right, hlt'⟩, l, r, hleft, hl, hright, hr, rfl⟩ := operands_of_parts h
    exact storable_of_children nofun <| List.forall_mem_cons.mpr
      ⟨storable_of_decode? true left (sized_of_nodePart? hj hleft) hl, List.forall_mem_singleton.mpr
        (storable_of_decode? true right (sized_of_nodePart? hj hright) hr)⟩
  case h_12 =>
    obtain ⟨⟨condition, hlt⟩, hcondition, h⟩ := Option.bind_eq_some_iff.mp h
    obtain ⟨⟨yes, hlt'⟩, hyes, h⟩ := Option.bind_eq_some_iff.mp h
    obtain ⟨⟨no, hlt''⟩, hno, h⟩ := Option.bind_eq_some_iff.mp h
    obtain ⟨c, hc, h⟩ := Option.bind_eq_some_iff.mp h
    obtain ⟨y, hy, h⟩ := Option.bind_eq_some_iff.mp h
    obtain ⟨n, hn, h⟩ := Option.bind_eq_some_iff.mp h
    cases h
    have hc := storable_of_decode? true condition (sized_of_nodePart? hj hcondition) hc
    have hy := storable_of_decode? true yes (sized_of_nodePart? hj hyes) hy
    have hn := storable_of_decode? true no (sized_of_nodePart? hj hno) hn
    exact storable_of_children nofun <| List.forall_mem_cons.mpr
      ⟨hc, List.forall_mem_cons.mpr ⟨hy, List.forall_mem_singleton.mpr hn⟩⟩
  case h_13 => cases h
termination_by sizeOf j

theorem storable_of_decodeArray? (j : Json) {es : List Expression} (hj : j.Sized)
    (h : decodeArray? j = some es) : ∀ e ∈ es, e.Storable := by
  unfold decodeArray? at h
  split at h
  · rename_i items
    exact storable_of_decodeItems? items hj h
  · cases h
termination_by sizeOf j

theorem storable_of_decodeItems? (items : List Json) {es : List Expression}
    (hitems : Json.SizedItems items) (h : decodeItems? items = some es) :
    ∀ e ∈ es, e.Storable := by
  cases items with
  | nil =>
      rw [decodeItems?] at h
      cases h
      nofun
  | cons item rest =>
      rw [decodeItems?] at h
      obtain ⟨e, he, h⟩ := Option.bind_eq_some_iff.mp h
      obtain ⟨es', hes, h⟩ := Option.bind_eq_some_iff.mp h
      cases h
      exact List.forall_mem_cons.mpr ⟨storable_of_decode? true item hitems.1 he,
        storable_of_decodeItems? rest hitems.2 hes⟩
termination_by sizeOf items

theorem storable_of_decodeEntries? (j : Json) {entries : List (Expression × Expression)}
    (hj : j.Sized) (h : decodeEntries? j = some entries) :
    ∀ e ∈ entries.flatMap fun (key, value) => [key, value], e.Storable := by
  unfold decodeEntries? at h
  split at h
  · rename_i items
    exact storable_of_decodePairs? items hj h
  · cases h
termination_by sizeOf j

theorem storable_of_decodePairs? (items : List Json) {entries : List (Expression × Expression)}
    (hitems : Json.SizedItems items) (h : decodePairs? items = some entries) :
    ∀ e ∈ entries.flatMap fun (key, value) => [key, value], e.Storable := by
  unfold decodePairs? at h
  split at h
  · cases h
    nofun
  · rename_i key value rest
    obtain ⟨k, hk, h⟩ := Option.bind_eq_some_iff.mp h
    obtain ⟨v, hv, h⟩ := Option.bind_eq_some_iff.mp h
    obtain ⟨pairs, hpairs, h⟩ := Option.bind_eq_some_iff.mp h
    cases h
    obtain ⟨⟨hkey, hvalue, -⟩, hrest⟩ := hitems
    have hk := storable_of_decode? true key hkey hk
    have hv := storable_of_decode? true value hvalue hv
    have hpairs := storable_of_decodePairs? rest hrest hpairs
    exact List.forall_mem_cons.mpr ⟨hk, List.forall_mem_cons.mpr ⟨hv, hpairs⟩⟩
  · cases h
termination_by sizeOf items

end

end Expression
end Placement
