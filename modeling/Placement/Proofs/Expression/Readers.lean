import Placement.Expression.Source
/-! # The readers, call by call

The readers of `Expression` call each other.  Here every reader has a name (`Reader`), and what
it does is written once, with **the calls of other readers left open** (`Reader.asking`): in the
monad of plain results it is the readers themselves (`Reader.read_succ`), and in another monad
the calls can be watched.
-/
namespace Placement

/-- The readers of `Expression`, with what they are told beside the cursor. -/
inductive Reader
  | expression
  /-- Operands joined by the operators of one level. -/
  | chain (level : Level)
  | operand (level : Level)
  /-- The loop of a chain: further operands behind what was read. -/
  | links (level : Level) (left : Expression)
  | unary
  | member
  /-- The loop of member steps behind what was read. -/
  | steps (target : Expression)
  /-- The loop over the items up to a closing token. -/
  | items (close : Token)
  /-- The loop over the entries up to a closing brace. -/
  | entries
  | primary

namespace Reader

/-- What a reader returns, beside the cursor. -/
@[reducible] def Result : Reader → Type
  | .items _ => List Expression
  | .entries => List (Expression × Expression)
  | _ => Expression

variable (negate : Expression → Expression)

/-- Read with so many steps. -/
def read (steps : Nat) : (r : Reader) → Cursor → Except Fault (r.Result × Cursor)
  | .expression, c => Expression.readExpression negate steps c
  | .chain level, c => Expression.readChain negate steps level c
  | .operand level, c => Expression.readOperand negate steps level c
  | .links level left, c => Expression.readLinks negate steps level left c
  | .unary, c => Expression.readUnary negate steps c
  | .member, c => Expression.readMember negate steps c
  | .steps target, c => Expression.readSteps negate steps target c
  | .items close, c => Expression.readItems negate steps close c
  | .entries, c => Expression.readEntries negate steps c
  | .primary, c => Expression.readPrimary negate steps c

/-- **What each reader does**, calling `call` for the parts. -/
def asking {m : Type → Type} [Monad m] [MonadLiftT (Except Fault) m]
    (call : (r : Reader) → Cursor → m (r.Result × Cursor)) :
    (r : Reader) → Cursor → m (r.Result × Cursor)
  | .expression, c => do
      let c ← c.deeper
      let (condition, c) ← call (.chain .disjunction) c
      match c.accept? .question with
      | none => pure (condition, c.higher)
      | some c => do
          let (yes, c) ← call .expression c
          let c ← c.require .colon
          let (no, c) ← call .expression c
          pure (.conditional condition yes no, c.higher)
  | .chain level, c => do
      let (first, after) ← call (.operand level) c
      let (e, after) ← call (.links level first) after
      pure (e, after.backTo c.depth)
  | .operand level, c =>
      match level.tighter? with
      | some tighter => call (.chain tighter) c
      | none => call .unary c
  | .links level left, c =>
      match c.current?.bind level.join? with
      | none => pure (left, c)
      | some join => do
          let c ← c.advance.deeper
          let (right, c) ← call (.operand level) c
          call (.links level (join left right)) c
  | .unary, c =>
      match c.current? with
      | some .not => do
          let c ← c.advance.deeper
          let (e, c) ← call .unary c
          pure (.unary .not e, c.higher)
      | some .minus => do
          let c ← c.advance.deeper
          let (e, c) ← call .unary c
          pure (negate e, c.higher)
      | _ => call .member c
  | .member, c => do
      let (target, after) ← call .primary c
      let (e, after) ← call (.steps target) after
      pure (e, after.backTo c.depth)
  | .steps target, c =>
      match c.current? with
      | some .dot => do
          let c ← c.advance.deeper
          let (name, c) ← c.name
          match c.accept? .openParen with
          | none => call (.steps (.member target name)) c
          | some c => do
              let (args, c) ← call (.items .closeParen) c
              call (.steps (.method target name args)) c
      | some .openBracket => do
          let c ← c.advance.deeper
          let (position, c) ← call .expression c
          let c ← c.require .closeBracket
          call (.steps (.index target position)) c
      | _ => pure (target, c)
  | .items close, c =>
      match c.accept? close with
      | some c => pure ([], c)
      | none => do
          let (item, c) ← call .expression c
          match c.accept? .comma with
          | some c => do
              let (more, c) ← call (.items close) c
              pure (item :: more, c)
          | none => do
              let c ← c.require close
              pure ([item], c)
  | .entries, c =>
      match c.accept? .closeBrace with
      | some c => pure ([], c)
      | none => do
          let (key, c) ← call .expression c
          let c ← c.require .colon
          let (value, c) ← call .expression c
          match c.accept? .comma with
          | some c => do
              let (more, c) ← call .entries c
              pure ((key, value) :: more, c)
          | none => do
              let c ← c.require .closeBrace
              pure ([(key, value)], c)
  | .primary, c => do
      let (lexeme, c) ← c.next
      match lexeme.token with
      | .null => pure (.literal .null, c)
      | .bool b => pure (.literal (.bool b), c)
      | .int n => pure (.literal (.int n), c)
      | .float x => pure (.literal (.float x), c)
      | .string s => pure (.literal (.string s), c)
      | .identifier name =>
          match c.accept? .openParen with
          | none => pure (.ident name, c)
          | some c => do
              let (args, c) ← call (.items .closeParen) c
              pure (.call name args, c)
      | .openParen => do
          let (e, c) ← call .expression c
          let c ← c.require .closeParen
          pure (e, c)
      | .openBracket => do
          let (elements, c) ← call (.items .closeBracket) c
          pure (.list elements, c)
      | .openBrace => do
          let (pairs, c) ← call .entries c
          pure (.map pairs, c)
      | found => liftM (m := Except Fault) (.error (.misplaced (.unexpected found) lexeme.start))

/-- The readers do what is written in `asking`, one step with the calls of the step before. -/
theorem read_succ (steps : Nat) (r : Reader) (c : Cursor) :
    r.read negate (steps + 1) c = asking negate (fun r c => r.read negate steps c) r c := by
  cases r <;> rfl

end Reader

/-! ## Where the cursor goes -/

namespace Cursor
variable {c d e : Cursor} {t : Token}

/-- One cursor stands behind another in the same tokens, by at least one token. -/
def Before (c d : Cursor) : Prop := ∃ taken, taken ≠ [] ∧ c.rest = taken ++ d.rest

theorem Before.suffix (h : c.Before d) : d.rest <:+ c.rest := by
  obtain ⟨taken, -, htaken⟩ := h
  exact ⟨taken, htaken.symm⟩

theorem Before.length_lt (h : c.Before d) : d.rest.length < c.rest.length := by
  obtain ⟨taken, hne, htaken⟩ := h
  have hpos := List.length_pos_iff.mpr hne
  rw [htaken, List.length_append]
  omega

theorem Before.trans_suffix (h : c.Before d) (h' : e.rest <:+ d.rest) : c.Before e := by
  obtain ⟨taken, hne, htaken⟩ := h
  obtain ⟨more, hmore⟩ := h'
  exact ⟨taken ++ more, List.append_ne_nil_of_left_ne_nil hne more, by
    rw [htaken, ← hmore, List.append_assoc]⟩

theorem Before.of_rest (h : d.Before e) (hrest : d.rest = c.rest) : c.Before e := by
  rwa [Before, hrest] at h

theorem Before.trans (h : c.Before d) (h' : d.Before e) : c.Before e := h.trans_suffix h'.suffix

theorem before_of_next {lexeme : Lexeme} (h : c.next = .ok (lexeme, d)) :
    c.Before d ∧ d.depth = c.depth := by
  obtain ⟨_ | ⟨first, rest⟩, depth⟩ := c
  · cases h
  · cases h
    exact ⟨⟨[lexeme], List.cons_ne_nil _ _, rfl⟩, rfl⟩

theorem before_advance (h : c.current? = some t) :
    c.Before c.advance ∧ c.advance.depth = c.depth := by
  obtain ⟨_ | ⟨first, rest⟩, depth⟩ := c
  · cases h
  · exact ⟨⟨[first], List.cons_ne_nil _ _, rfl⟩, rfl⟩

theorem before_of_accept? (h : c.accept? t = some d) : c.Before d ∧ d.depth = c.depth := by
  rw [accept?] at h
  split at h
  · rename_i hcurrent
    cases h
    exact before_advance hcurrent
  · cases h

theorem before_of_require (h : c.require t = .ok d) : c.Before d ∧ d.depth = c.depth := by
  rw [require] at h
  obtain ⟨⟨lexeme, after⟩, hnext, h⟩ := exists_of_bind_eq_ok h
  dsimp only at h
  split at h
  · cases h
    exact before_of_next hnext
  · cases h

theorem before_of_name {name : String} (h : c.name = .ok (name, d)) :
    c.Before d ∧ d.depth = c.depth := by
  rw [Cursor.name] at h
  obtain ⟨⟨lexeme, after⟩, hnext, h⟩ := exists_of_bind_eq_ok h
  dsimp only at h
  split at h
  · cases h
    exact before_of_next hnext
  · cases h

theorem rest_of_deeper (h : c.deeper = .ok d) :
    d.rest = c.rest ∧ d.depth = c.depth + 1 ∧ d.depth ≤ maxDepth := by
  rw [deeper] at h
  split at h
  · cases h
  · cases h
    exact ⟨rfl, rfl, Nat.not_lt.mp ‹_›⟩

theorem before_of_deeper (hcurrent : c.current? = some t) (h : c.advance.deeper = .ok d) :
    c.Before d ∧ d.depth ≤ maxDepth := by
  obtain ⟨hrest, -, hmax⟩ := rest_of_deeper h
  have hsuffix : d.rest <:+ c.advance.rest := hrest ▸ List.suffix_rfl
  exact ⟨(before_advance hcurrent).1.trans_suffix hsuffix, hmax⟩

end Cursor

namespace Reader
variable {negate : Expression → Expression}

/-- **How a reader moves the cursor** when it returns.  The loops of chains and of member steps
leave it below the level where they started, and need not take a token; all others take one,
and come back to their level. -/
def Moves : Reader → Cursor → Cursor → Prop
  | .links _ _, c, d => d.rest <:+ c.rest
  | .steps _, c, d => d.rest <:+ c.rest
  | _, c, d => c.Before d ∧ d.depth = c.depth

/-- The loops of chains and of member steps, which start in the middle of an expression. -/
def Resumes : Reader → Prop
  | .links _ _ => True
  | .steps _ => True
  | _ => False

theorem Moves.balanced {r : Reader} {c d : Cursor} (h : r.Moves c d) (hr : ¬ r.Resumes) :
    d.depth = c.depth ∧ c.Before d := by
  cases r with
  | links level left => exact absurd trivial hr
  | steps target => exact absurd trivial hr
  | _ => exact ⟨h.2, h.1⟩

section
variable {call : (r : Reader) → Cursor → Except Fault (r.Result × Cursor)}
  (hcall : ∀ {r : Reader} {c : Cursor} {x : r.Result} {d : Cursor},
    call r c = .ok (x, d) → r.Moves c d)
  {c d : Cursor} {e : Expression}
include hcall

theorem moves_expression (h : asking negate call .expression c = .ok (e, d)) :
    c.Before d ∧ d.depth = c.depth := by
  obtain ⟨c₁, hdeeper, h⟩ := exists_of_bind_eq_ok h
  obtain ⟨hrest₁, hdepth₁, -⟩ := Cursor.rest_of_deeper hdeeper
  obtain ⟨⟨condition, c₂⟩, hcondition, h⟩ := exists_of_bind_eq_ok h
  obtain ⟨hbefore₂, hdepth₂⟩ := hcall hcondition
  have hbefore := hbefore₂.of_rest hrest₁
  dsimp only at h
  split at h
  · cases h
    refine ⟨hbefore, ?_⟩
    show c₂.depth - 1 = c.depth
    omega
  · rename_i c₃ hquestion
    obtain ⟨hbefore₃, hdepth₃⟩ := Cursor.before_of_accept? hquestion
    obtain ⟨⟨yes, c₄⟩, hyes, h⟩ := exists_of_bind_eq_ok h
    obtain ⟨hbefore₄, hdepth₄⟩ := hcall hyes
    dsimp only at h
    obtain ⟨c₅, hcolon, h⟩ := exists_of_bind_eq_ok h
    obtain ⟨hbefore₅, hdepth₅⟩ := Cursor.before_of_require hcolon
    obtain ⟨⟨no, c₆⟩, hno, h⟩ := exists_of_bind_eq_ok h
    obtain ⟨hbefore₆, hdepth₆⟩ := hcall hno
    cases h
    refine ⟨hbefore.trans (hbefore₃.trans (hbefore₄.trans (hbefore₅.trans hbefore₆))), ?_⟩
    show c₆.depth - 1 = c.depth
    omega

theorem moves_chain {level : Level} (h : asking negate call (.chain level) c = .ok (e, d)) :
    c.Before d ∧ d.depth = c.depth := by
  obtain ⟨⟨first, c₁⟩, hfirst, h⟩ := exists_of_bind_eq_ok h
  obtain ⟨hbefore, -⟩ := hcall hfirst
  obtain ⟨⟨e', c₂⟩, hlinks, h⟩ := exists_of_bind_eq_ok h
  have hsuffix := hcall hlinks
  cases h
  exact ⟨hbefore.trans_suffix hsuffix, rfl⟩

theorem moves_operand {level : Level} (h : asking negate call (.operand level) c = .ok (e, d)) :
    c.Before d ∧ d.depth = c.depth := by
  rw [asking] at h
  split at h
  · exact hcall h
  · exact hcall h

theorem moves_links {level : Level} {left : Expression}
    (h : asking negate call (.links level left) c = .ok (e, d)) : d.rest <:+ c.rest := by
  rw [asking] at h
  split at h
  · cases h
    exact List.suffix_rfl
  · rename_i join hjoin
    obtain ⟨t, hcurrent, -⟩ := Option.bind_eq_some_iff.mp hjoin
    obtain ⟨c₁, hdeeper, h⟩ := exists_of_bind_eq_ok h
    obtain ⟨hrest₁, -, -⟩ := Cursor.rest_of_deeper hdeeper
    obtain ⟨⟨right, c₂⟩, hright, h⟩ := exists_of_bind_eq_ok h
    obtain ⟨hbefore₂, -⟩ := hcall hright
    have hsuffix := hcall h
    exact ((Cursor.before_advance hcurrent).1.trans
      ((hbefore₂.of_rest hrest₁).trans_suffix hsuffix)).suffix

/-- An operator in front, with its operand. -/
theorem moves_sign {t : Token} {build : Expression → Expression} (hcurrent : c.current? = some t)
    (h : (c.advance.deeper >>= fun c => call .unary c >>= fun p =>
      .ok (build p.1, p.2.higher)) = .ok (e, d)) : c.Before d ∧ d.depth = c.depth := by
  obtain ⟨hbefore, hdepth⟩ := Cursor.before_advance hcurrent
  obtain ⟨c₁, hdeeper, h⟩ := exists_of_bind_eq_ok h
  obtain ⟨hrest₁, hdepth₁, -⟩ := Cursor.rest_of_deeper hdeeper
  obtain ⟨⟨operand, c₂⟩, hoperand, h⟩ := exists_of_bind_eq_ok h
  obtain ⟨hbefore₂, hdepth₂⟩ := hcall hoperand
  cases h
  refine ⟨hbefore.trans (hbefore₂.of_rest hrest₁), ?_⟩
  show c₂.depth - 1 = c.depth
  omega

theorem moves_unary (h : asking negate call .unary c = .ok (e, d)) :
    c.Before d ∧ d.depth = c.depth := by
  rw [asking] at h
  split at h
  · exact moves_sign hcall ‹_› h
  · exact moves_sign hcall ‹_› h
  · exact hcall h

theorem moves_member (h : asking negate call .member c = .ok (e, d)) :
    c.Before d ∧ d.depth = c.depth := by
  obtain ⟨⟨target, c₁⟩, htarget, h⟩ := exists_of_bind_eq_ok h
  obtain ⟨hbefore, -⟩ := hcall htarget
  obtain ⟨⟨e', c₂⟩, hsteps, h⟩ := exists_of_bind_eq_ok h
  have hsuffix := hcall hsteps
  cases h
  exact ⟨hbefore.trans_suffix hsuffix, rfl⟩

theorem moves_steps {target : Expression}
    (h : asking negate call (.steps target) c = .ok (e, d)) : d.rest <:+ c.rest := by
  rw [asking] at h
  split at h
  · have hbefore := (Cursor.before_advance ‹_›).1
    obtain ⟨c₁, hdeeper, h⟩ := exists_of_bind_eq_ok h
    obtain ⟨hrest₁, -, -⟩ := Cursor.rest_of_deeper hdeeper
    obtain ⟨⟨name, c₂⟩, hname, h⟩ := exists_of_bind_eq_ok h
    have hbefore₂ := hbefore.trans ((Cursor.before_of_name hname).1.of_rest hrest₁)
    dsimp only at h
    split at h
    · exact (hbefore₂.trans_suffix (hcall h)).suffix
    · rename_i c₃ hopen
      obtain ⟨⟨args, c₄⟩, hargs, h⟩ := exists_of_bind_eq_ok h
      obtain ⟨hbefore₄, -⟩ := hcall hargs
      have hbefore₃ := (Cursor.before_of_accept? hopen).1.trans hbefore₄
      exact (hbefore₂.trans (hbefore₃.trans_suffix (hcall h))).suffix
  · have hbefore := (Cursor.before_advance ‹_›).1
    obtain ⟨c₁, hdeeper, h⟩ := exists_of_bind_eq_ok h
    obtain ⟨hrest₁, -, -⟩ := Cursor.rest_of_deeper hdeeper
    obtain ⟨⟨position, c₂⟩, hposition, h⟩ := exists_of_bind_eq_ok h
    obtain ⟨hbefore₂, -⟩ := hcall hposition
    obtain ⟨c₃, hclose, h⟩ := exists_of_bind_eq_ok h
    have hbefore₃ := (hbefore₂.of_rest hrest₁).trans (Cursor.before_of_require hclose).1
    exact (hbefore.trans (hbefore₃.trans_suffix (hcall h))).suffix
  · cases h
    exact List.suffix_rfl

theorem moves_items {close : Token} {es : List Expression}
    (h : asking negate call (.items close) c = .ok (es, d)) :
    c.Before d ∧ d.depth = c.depth := by
  rw [asking] at h
  split at h
  · cases h
    exact Cursor.before_of_accept? ‹_›
  · obtain ⟨⟨item, c₁⟩, hitem, h⟩ := exists_of_bind_eq_ok h
    obtain ⟨hbefore₁, hdepth₁⟩ := hcall hitem
    dsimp only at h
    split at h
    · rename_i c₂ hcomma
      obtain ⟨hbefore₂, hdepth₂⟩ := Cursor.before_of_accept? hcomma
      obtain ⟨⟨more, c₃⟩, hmore, h⟩ := exists_of_bind_eq_ok h
      obtain ⟨hbefore₃, hdepth₃⟩ := hcall hmore
      dsimp only at h
      cases h
      exact ⟨hbefore₁.trans (hbefore₂.trans hbefore₃), by omega⟩
    · obtain ⟨c₂, hclose, h⟩ := exists_of_bind_eq_ok h
      obtain ⟨hbefore₂, hdepth₂⟩ := Cursor.before_of_require hclose
      cases h
      exact ⟨hbefore₁.trans hbefore₂, by omega⟩

theorem moves_entries {pairs : List (Expression × Expression)}
    (h : asking negate call .entries c = .ok (pairs, d)) : c.Before d ∧ d.depth = c.depth := by
  rw [asking] at h
  split at h
  · cases h
    exact Cursor.before_of_accept? ‹_›
  · obtain ⟨⟨key, c₁⟩, hkey, h⟩ := exists_of_bind_eq_ok h
    obtain ⟨hbefore₁, hdepth₁⟩ := hcall hkey
    obtain ⟨c₂, hcolon, h⟩ := exists_of_bind_eq_ok h
    obtain ⟨hbefore₂, hdepth₂⟩ := Cursor.before_of_require hcolon
    obtain ⟨⟨value, c₃⟩, hvalue, h⟩ := exists_of_bind_eq_ok h
    obtain ⟨hbefore₃, hdepth₃⟩ := hcall hvalue
    have hbefore := hbefore₁.trans (hbefore₂.trans hbefore₃)
    dsimp only at h
    split at h
    · rename_i c₄ hcomma
      obtain ⟨hbefore₄, hdepth₄⟩ := Cursor.before_of_accept? hcomma
      obtain ⟨⟨more, c₅⟩, hmore, h⟩ := exists_of_bind_eq_ok h
      obtain ⟨hbefore₅, hdepth₅⟩ := hcall hmore
      dsimp only at h
      cases h
      exact ⟨hbefore.trans (hbefore₄.trans hbefore₅), by omega⟩
    · obtain ⟨c₄, hclose, h⟩ := exists_of_bind_eq_ok h
      obtain ⟨hbefore₄, hdepth₄⟩ := Cursor.before_of_require hclose
      cases h
      exact ⟨hbefore.trans hbefore₄, by omega⟩

theorem moves_primary (h : asking negate call .primary c = .ok (e, d)) :
    c.Before d ∧ d.depth = c.depth := by
  obtain ⟨⟨⟨token, start, stop⟩, c₁⟩, hnext, h⟩ := exists_of_bind_eq_ok h
  obtain ⟨hbefore₁, hdepth₁⟩ := Cursor.before_of_next hnext
  cases token with
  | null | bool _ | int _ | float _ | string _ =>
      cases h
      exact ⟨hbefore₁, hdepth₁⟩
  | identifier name =>
      dsimp only at h
      split at h
      · cases h
        exact ⟨hbefore₁, hdepth₁⟩
      · rename_i c₂ hopen
        obtain ⟨hbefore₂, hdepth₂⟩ := Cursor.before_of_accept? hopen
        obtain ⟨⟨args, c₃⟩, hargs, h⟩ := exists_of_bind_eq_ok h
        obtain ⟨hbefore₃, hdepth₃⟩ := hcall hargs
        dsimp only at h
        cases h
        exact ⟨hbefore₁.trans (hbefore₂.trans hbefore₃), by omega⟩
  | openParen =>
      obtain ⟨⟨inner, c₂⟩, hinner, h⟩ := exists_of_bind_eq_ok h
      obtain ⟨hbefore₂, hdepth₂⟩ := hcall hinner
      dsimp only at h
      obtain ⟨c₃, hclose, h⟩ := exists_of_bind_eq_ok h
      obtain ⟨hbefore₃, hdepth₃⟩ := Cursor.before_of_require hclose
      cases h
      exact ⟨hbefore₁.trans (hbefore₂.trans hbefore₃), by omega⟩
  | openBracket =>
      obtain ⟨⟨elements, c₂⟩, helements, h⟩ := exists_of_bind_eq_ok h
      obtain ⟨hbefore₂, hdepth₂⟩ := hcall helements
      dsimp only at h
      cases h
      exact ⟨hbefore₁.trans hbefore₂, by omega⟩
  | openBrace =>
      obtain ⟨⟨pairs, c₂⟩, hpairs, h⟩ := exists_of_bind_eq_ok h
      obtain ⟨hbefore₂, hdepth₂⟩ := hcall hpairs
      dsimp only at h
      cases h
      exact ⟨hbefore₁.trans hbefore₂, by omega⟩
  | _ => cases h

end

/-- **Whatever a reader returns, it has moved the cursor** as it should. -/
theorem moves_of_read {steps : Nat} {r : Reader} {c d : Cursor} {x : r.Result}
    (h : r.read negate steps c = .ok (x, d)) : r.Moves c d := by
  induction steps generalizing c d r with
  | zero => cases r <;> cases h
  | succ steps ih =>
      rw [read_succ] at h
      cases r with
      | expression => exact moves_expression ih h
      | chain level => exact moves_chain ih h
      | operand level => exact moves_operand ih h
      | links level left => exact moves_links ih h
      | unary => exact moves_unary ih h
      | member => exact moves_member ih h
      | steps target => exact moves_steps ih h
      | items close => exact moves_items ih h
      | entries => exact moves_entries ih h
      | primary => exact moves_primary ih h

end Reader
end Placement
