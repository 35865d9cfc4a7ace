import Placement.Proofs.Expression.Grammar
/-! # What a reader accepts

**What is read is derived**: the tokens that a reader takes stand for the expression that
it returns, it comes back to the depth it started from, and the nesting of the derivation
fits below `maxDepth` (`Took`).

The readers call each other with one step less, so there is one lemma for each reader, under
the assumption that all readers are sound for one step less (`Sound`), and one induction.
-/
namespace Placement

namespace Cursor
variable {c d : Cursor} {t : Token}

/-- The tokens still to come. -/
def tokens (c : Cursor) : List Token := c.rest.map Lexeme.token

theorem deeper_ok (h : c.deeper = .ok d) :
    d.tokens = c.tokens ∧ d.depth = c.depth + 1 ∧ c.depth + 1 ≤ maxDepth := by
  rw [deeper] at h
  split at h
  · cases h
  · cases h
    exact ⟨rfl, rfl, by omega⟩

theorem current?_some (h : c.current? = some t) :
    c.tokens = t :: c.advance.tokens ∧ c.advance.depth = c.depth := by
  obtain ⟨_ | ⟨lexeme, rest⟩, depth⟩ := c
  · cases h
  · cases h
    exact ⟨rfl, rfl⟩

theorem accept?_some (h : c.accept? t = some d) :
    c.tokens = t :: d.tokens ∧ d.depth = c.depth := by
  rw [accept?] at h
  split at h
  · rename_i hcurrent
    cases h
    exact current?_some hcurrent
  · cases h

theorem next_ok {lexeme : Lexeme} (h : c.next = .ok (lexeme, d)) :
    c.tokens = lexeme.token :: d.tokens ∧ d.depth = c.depth := by
  obtain ⟨_ | ⟨first, rest⟩, depth⟩ := c
  · cases h
  · cases h
    exact ⟨rfl, rfl⟩

theorem require_ok (h : c.require t = .ok d) : c.tokens = t :: d.tokens ∧ d.depth = c.depth := by
  rw [require] at h
  obtain ⟨⟨lexeme, after⟩, hnext, h⟩ := exists_of_bind_eq_ok h
  dsimp only at h
  split at h
  · rename_i htoken
    cases h
    exact htoken ▸ next_ok hnext
  · cases h

theorem name_ok {name : String} (h : c.name = .ok (name, d)) :
    c.tokens = .identifier name :: d.tokens ∧ d.depth = c.depth := by
  rw [Cursor.name] at h
  obtain ⟨⟨lexeme, after⟩, hnext, h⟩ := exists_of_bind_eq_ok h
  dsimp only at h
  split at h
  · rename_i htoken
    cases h
    exact htoken ▸ next_ok hnext
  · cases h

end Cursor

namespace Expression
variable {negate : Expression → Expression}

/-- **A reader took a form**: the tokens between the cursors stand for the expression, and
their nesting fits. -/
def Took (negate : Expression → Expression) (form : Form) (c : Cursor) (e : Expression)
    (d : Cursor) : Prop :=
  ∃ n ts, c.tokens = ts ++ d.tokens ∧ Derives negate form n ts e ∧ d.depth = c.depth ∧
    (c.depth ≤ maxDepth → c.depth + n ≤ maxDepth)

/-- All readers are sound, with so many steps. -/
structure Sound (negate : Expression → Expression) (steps : Nat) : Prop where
  -- `links` and `memberSteps` go on where a chain has `k` links already: the cursor is then
  -- `k` levels below the `start` of the chain, where the nesting of the whole is counted from.
  expression : ∀ {c e d}, readExpression negate steps c = .ok (e, d) →
    Took negate .expression c e d
  chain : ∀ {level c e d}, readChain negate steps level c = .ok (e, d) →
    ∃ k, Took negate (.chain level k) c e d
  operand : ∀ {level c e d}, readOperand negate steps level c = .ok (e, d) →
    Took negate (.operand level) c e d
  links : ∀ {level left c e d k n ls start}, readLinks negate steps level left c = .ok (e, d) →
    c.depth = start + k → Derives negate (.chain level k) n ls left →
    (start ≤ maxDepth → start + n ≤ maxDepth) →
    ∃ k' n' ts, c.tokens = ts ++ d.tokens ∧ Derives negate (.chain level k') n' (ls ++ ts) e ∧
      (start ≤ maxDepth → start + n' ≤ maxDepth)
  unary : ∀ {c e d}, readUnary negate steps c = .ok (e, d) → Took negate .unary c e d
  member : ∀ {c e d}, readMember negate steps c = .ok (e, d) → ∃ k, Took negate (.steps k) c e d
  memberSteps : ∀ {target c e d k n ls start}, readSteps negate steps target c = .ok (e, d) →
    c.depth = start + k → Derives negate (.steps k) n ls target →
    (start ≤ maxDepth → start + n ≤ maxDepth) →
    ∃ k' n' ts, c.tokens = ts ++ d.tokens ∧ Derives negate (.steps k') n' (ls ++ ts) e ∧
      (start ≤ maxDepth → start + n' ≤ maxDepth)
  items : ∀ {close c es d}, readItems negate steps close c = .ok (es, d) →
    Took negate (.items close) c (.list es) d
  entries : ∀ {c es d}, readEntries negate steps c = .ok (es, d) →
    Took negate .entries c (.map es) d
  primary : ∀ {c e d}, readPrimary negate steps c = .ok (e, d) → Took negate .primary c e d

section
variable {steps : Nat} (hs : Sound negate steps) {c d : Cursor} {e : Expression}
include hs

theorem readExpression_sound (h : readExpression negate (steps + 1) c = .ok (e, d)) :
    Took negate .expression c e d := by
  rw [readExpression] at h
  obtain ⟨c₁, hdeeper, h⟩ := exists_of_bind_eq_ok h
  obtain ⟨htokens, hdepth, hmax⟩ := Cursor.deeper_ok hdeeper
  obtain ⟨⟨condition, c₂⟩, hcondition, h⟩ := exists_of_bind_eq_ok h
  obtain ⟨k, n, cs, hcs, hderives, hdepth₂, hfits⟩ := hs.chain hcondition
  dsimp only at h
  split at h
  · cases h
    refine ⟨n + 1, cs, htokens ▸ hcs, .bare hderives, ?_, ?_⟩
    · show c₂.depth - 1 = c.depth
      omega
    · omega
  · rename_i c₃ hquestion
    obtain ⟨hq, hdepth₃⟩ := Cursor.accept?_some hquestion
    obtain ⟨⟨yes, c₄⟩, hyes, h⟩ := exists_of_bind_eq_ok h
    dsimp only at h
    obtain ⟨y, ys, hys, hderives₁, hdepth₄, hfits₁⟩ := hs.expression hyes
    obtain ⟨c₅, hcolon, h⟩ := exists_of_bind_eq_ok h
    obtain ⟨hc, hdepth₅⟩ := Cursor.require_ok hcolon
    obtain ⟨⟨no, c₆⟩, hno, h⟩ := exists_of_bind_eq_ok h
    obtain ⟨z, zs, hzs, hderives₂, hdepth₆, hfits₂⟩ := hs.expression hno
    cases h
    refine ⟨max n (max y z) + 1, cs ++ .question :: (ys ++ .colon :: zs), ?_,
      .conditional hderives hderives₁ hderives₂, ?_, ?_⟩
    · rw [← htokens, hcs, hq, hys, hc, hzs]
      simp only [List.append_assoc, List.cons_append]
      rfl
    · show c₆.depth - 1 = c.depth
      omega
    · omega

theorem readChain_sound {level : Level} (h : readChain negate (steps + 1) level c = .ok (e, d)) :
    ∃ k, Took negate (.chain level k) c e d := by
  rw [readChain] at h
  obtain ⟨⟨first, c₁⟩, hfirst, h⟩ := exists_of_bind_eq_ok h
  obtain ⟨n, ts, hts, hderives, hdepth, hfits⟩ := hs.operand hfirst
  obtain ⟨⟨e', c₂⟩, hlinks, h⟩ := exists_of_bind_eq_ok h
  obtain ⟨k, n', us, hus, hderives', hfits'⟩ :=
    hs.links (k := 0) hlinks hdepth (.first hderives) hfits
  cases h
  refine ⟨k, n', ts ++ us, ?_, hderives', rfl, hfits'⟩
  rw [hts, hus, List.append_assoc]
  rfl

theorem readOperand_sound {level : Level}
    (h : readOperand negate (steps + 1) level c = .ok (e, d)) :
    Took negate (.operand level) c e d := by
  rw [readOperand] at h
  split at h
  · rename_i tighter htighter
    obtain ⟨k, n, ts, hts, hderives, hrest⟩ := hs.chain h
    exact ⟨n, ts, hts, .tighter htighter hderives, hrest⟩
  · rename_i htightest
    obtain ⟨n, ts, hts, hderives, hrest⟩ := hs.unary h
    exact ⟨n, ts, hts, .tightest htightest hderives, hrest⟩

theorem readLinks_sound {level : Level} {left : Expression} {k n start : Nat} {ls : List Token}
    (h : readLinks negate (steps + 1) level left c = .ok (e, d)) (hdepth : c.depth = start + k)
    (hleft : Derives negate (.chain level k) n ls left)
    (hfits : start ≤ maxDepth → start + n ≤ maxDepth) :
    ∃ k' n' ts, c.tokens = ts ++ d.tokens ∧ Derives negate (.chain level k') n' (ls ++ ts) e ∧
      (start ≤ maxDepth → start + n' ≤ maxDepth) := by
  rw [readLinks] at h
  split at h
  · cases h
    exact ⟨k, n, [], rfl, by rwa [List.append_nil], hfits⟩
  · rename_i join hjoin
    obtain ⟨t, hcurrent, hjoin⟩ := Option.bind_eq_some_iff.mp hjoin
    obtain ⟨ht, hdepth₁⟩ := Cursor.current?_some hcurrent
    obtain ⟨c₂, hdeeper, h⟩ := exists_of_bind_eq_ok h
    obtain ⟨htokens, hdepth₂, hmax⟩ := Cursor.deeper_ok hdeeper
    obtain ⟨⟨right, c₃⟩, hright, h⟩ := exists_of_bind_eq_ok h
    obtain ⟨m, rs, hrs, hderives, hdepth₃, hfits'⟩ := hs.operand hright
    obtain ⟨k', n', us, hus, hderives', hfits''⟩ :=
      hs.links h (show _ = start + (k + 1) by omega) (.link hleft hjoin hderives) (by omega)
    refine ⟨k', n', t :: (rs ++ us), ?_, ?_, hfits''⟩
    · rw [ht, ← htokens, hrs, hus]
      simp only [List.append_assoc, List.cons_append]
    · simpa only [List.append_assoc, List.cons_append] using hderives'

/-- An operator in front was taken, with its operand. -/
theorem took_prefix {t : Token} {build : Expression → Expression}
    (hbuild : ∀ {n ts e}, Derives negate .unary n ts e →
      Derives negate .unary (n + 1) (t :: ts) (build e))
    (hcurrent : c.current? = some t)
    (h : (c.advance.deeper >>= fun c => readUnary negate steps c >>= fun p =>
      .ok (build p.1, p.2.higher)) = .ok (e, d)) : Took negate .unary c e d := by
  obtain ⟨ht, hdepth⟩ := Cursor.current?_some hcurrent
  obtain ⟨c₁, hdeeper, h⟩ := exists_of_bind_eq_ok h
  obtain ⟨htokens, hdepth₁, hmax⟩ := Cursor.deeper_ok hdeeper
  obtain ⟨⟨operand, c₂⟩, hoperand, h⟩ := exists_of_bind_eq_ok h
  obtain ⟨n, ts, hts, hderives, hdepth₂, hfits⟩ := hs.unary hoperand
  cases h
  refine ⟨n + 1, t :: ts, ?_, hbuild hderives, ?_, ?_⟩
  · rw [ht, ← htokens, hts]
    rfl
  · show c₂.depth - 1 = c.depth
    omega
  · omega

theorem readUnary_sound (h : readUnary negate (steps + 1) c = .ok (e, d)) :
    Took negate .unary c e d := by
  rw [readUnary] at h
  split at h
  · rename_i hcurrent
    exact took_prefix hs .not hcurrent h
  · rename_i hcurrent
    exact took_prefix hs .minus hcurrent h
  · obtain ⟨k, n, ts, hts, hderives, hrest⟩ := hs.member h
    exact ⟨n, ts, hts, .member hderives, hrest⟩

theorem readMember_sound (h : readMember negate (steps + 1) c = .ok (e, d)) :
    ∃ k, Took negate (.steps k) c e d := by
  rw [readMember] at h
  obtain ⟨⟨target, c₁⟩, htarget, h⟩ := exists_of_bind_eq_ok h
  obtain ⟨n, ts, hts, hderives, hdepth, hfits⟩ := hs.primary htarget
  obtain ⟨⟨e', c₂⟩, hsteps, h⟩ := exists_of_bind_eq_ok h
  obtain ⟨k, n', us, hus, hderives', hfits'⟩ :=
    hs.memberSteps (k := 0) hsteps hdepth (.simple hderives) hfits
  cases h
  refine ⟨k, n', ts ++ us, ?_, hderives', rfl, hfits'⟩
  rw [hts, hus, List.append_assoc]
  rfl

theorem readSteps_sound {target : Expression} {k n start : Nat} {ls : List Token}
    (h : readSteps negate (steps + 1) target c = .ok (e, d)) (hdepth : c.depth = start + k)
    (htarget : Derives negate (.steps k) n ls target)
    (hfits : start ≤ maxDepth → start + n ≤ maxDepth) :
    ∃ k' n' ts, c.tokens = ts ++ d.tokens ∧ Derives negate (.steps k') n' (ls ++ ts) e ∧
      (start ≤ maxDepth → start + n' ≤ maxDepth) := by
  rw [readSteps] at h
  split at h
  · rename_i hcurrent
    obtain ⟨ht, hdepth₁⟩ := Cursor.current?_some hcurrent
    obtain ⟨c₂, hdeeper, h⟩ := exists_of_bind_eq_ok h
    obtain ⟨htokens, hdepth₂, hmax⟩ := Cursor.deeper_ok hdeeper
    obtain ⟨⟨name, c₃⟩, hname, h⟩ := exists_of_bind_eq_ok h
    obtain ⟨hn, hdepth₃⟩ := Cursor.name_ok hname
    dsimp only at h
    split at h
    · obtain ⟨k', n', us, hus, hderives, hfits'⟩ :=
        hs.memberSteps h (show _ = start + (k + 1) by omega) (.select htarget) (by omega)
      refine ⟨k', n', .dot :: .identifier name :: us, ?_, ?_, hfits'⟩
      · rw [ht, ← htokens, hn, hus]
        rfl
      · simpa only [List.append_assoc, List.cons_append, List.nil_append] using hderives
    · rename_i c₄ hopen
      obtain ⟨ho, hdepth₄⟩ := Cursor.accept?_some hopen
      obtain ⟨⟨args, c₅⟩, hargs, h⟩ := exists_of_bind_eq_ok h
      obtain ⟨m, as, has, hderives, hdepth₅, hfits'⟩ := hs.items hargs
      dsimp only at h
      obtain ⟨k', n', us, hus, hderives', hfits''⟩ :=
        hs.memberSteps h (show _ = start + (k + 1) by omega) (.method htarget hderives) (by omega)
      refine ⟨k', n', .dot :: .identifier name :: .openParen :: (as ++ us), ?_, ?_, hfits''⟩
      · rw [ht, ← htokens, hn, ho, has, hus]
        simp only [List.append_assoc, List.cons_append]
      · simpa only [List.append_assoc, List.cons_append] using hderives'
  · rename_i hcurrent
    obtain ⟨ht, hdepth₁⟩ := Cursor.current?_some hcurrent
    obtain ⟨c₂, hdeeper, h⟩ := exists_of_bind_eq_ok h
    obtain ⟨htokens, hdepth₂, hmax⟩ := Cursor.deeper_ok hdeeper
    obtain ⟨⟨position, c₃⟩, hposition, h⟩ := exists_of_bind_eq_ok h
    obtain ⟨m, ps, hps, hderives, hdepth₃, hfits'⟩ := hs.expression hposition
    dsimp only at h
    obtain ⟨c₄, hclose, h⟩ := exists_of_bind_eq_ok h
    obtain ⟨hc, hdepth₄⟩ := Cursor.require_ok hclose
    obtain ⟨k', n', us, hus, hderives', hfits''⟩ :=
      hs.memberSteps h (show _ = start + (k + 1) by omega) (.index htarget hderives) (by omega)
    refine ⟨k', n', .openBracket :: (ps ++ .closeBracket :: us), ?_, ?_, hfits''⟩
    · rw [ht, ← htokens, hps, hc, hus]
      simp only [List.append_assoc, List.cons_append]
    · simpa only [List.append_assoc, List.cons_append, List.nil_append] using hderives'
  · cases h
    exact ⟨k, n, [], rfl, by rwa [List.append_nil], hfits⟩

theorem readItems_sound {close : Token} {es : List Expression}
    (h : readItems negate (steps + 1) close c = .ok (es, d)) :
    Took negate (.items close) c (.list es) d := by
  rw [readItems] at h
  split at h
  · rename_i c₁ hclose
    obtain ⟨ht, hdepth⟩ := Cursor.accept?_some hclose
    cases h
    exact ⟨0, [close], ht, .noItems, hdepth, id⟩
  · obtain ⟨⟨item, c₁⟩, hitem, h⟩ := exists_of_bind_eq_ok h
    obtain ⟨n, ts, hts, hderives, hdepth₁, hfits⟩ := hs.expression hitem
    dsimp only at h
    split at h
    · rename_i c₂ hcomma
      obtain ⟨hc, hdepth₂⟩ := Cursor.accept?_some hcomma
      obtain ⟨⟨items, c₃⟩, hitems, h⟩ := exists_of_bind_eq_ok h
      obtain ⟨m, us, hus, hderives', hdepth₃, hfits'⟩ := hs.items hitems
      dsimp only at h
      cases h
      refine ⟨max n m, ts ++ .comma :: us, ?_, .moreItems hderives hderives', ?_, ?_⟩
      · rw [hts, hc, hus]
        simp only [List.append_assoc, List.cons_append]
      · omega
      · omega
    · obtain ⟨c₂, hclose, h⟩ := exists_of_bind_eq_ok h
      obtain ⟨hc, hdepth₂⟩ := Cursor.require_ok hclose
      cases h
      refine ⟨n, ts ++ [close], ?_, .lastItem hderives, ?_, hfits⟩
      · rw [hts, hc]
        simp only [List.append_assoc, List.cons_append, List.nil_append]
      · omega

theorem readEntries_sound {es : List (Expression × Expression)}
    (h : readEntries negate (steps + 1) c = .ok (es, d)) :
    Took negate .entries c (.map es) d := by
  rw [readEntries] at h
  split at h
  · rename_i c₁ hclose
    obtain ⟨ht, hdepth⟩ := Cursor.accept?_some hclose
    cases h
    exact ⟨0, [.closeBrace], ht, .noEntries, hdepth, id⟩
  · obtain ⟨⟨key, c₁⟩, hkey, h⟩ := exists_of_bind_eq_ok h
    obtain ⟨n, ks, hks, hderives, hdepth₁, hfits⟩ := hs.expression hkey
    dsimp only at h
    obtain ⟨c₂, hcolon, h⟩ := exists_of_bind_eq_ok h
    obtain ⟨hc, hdepth₂⟩ := Cursor.require_ok hcolon
    obtain ⟨⟨value, c₃⟩, hvalue, h⟩ := exists_of_bind_eq_ok h
    obtain ⟨m, vs, hvs, hderives', hdepth₃, hfits'⟩ := hs.expression hvalue
    dsimp only at h
    split at h
    · rename_i c₄ hcomma
      obtain ⟨hm, hdepth₄⟩ := Cursor.accept?_some hcomma
      obtain ⟨⟨entries, c₅⟩, hentries, h⟩ := exists_of_bind_eq_ok h
      obtain ⟨l, us, hus, hderives'', hdepth₅, hfits''⟩ := hs.entries hentries
      dsimp only at h
      cases h
      refine ⟨max n (max m l), ks ++ .colon :: (vs ++ .comma :: us), ?_,
        .moreEntries hderives hderives' hderives'', ?_, ?_⟩
      · rw [hks, hc, hvs, hm, hus]
        simp only [List.append_assoc, List.cons_append]
      · omega
      · omega
    · obtain ⟨c₄, hclose, h⟩ := exists_of_bind_eq_ok h
      obtain ⟨hb, hdepth₄⟩ := Cursor.require_ok hclose
      cases h
      refine ⟨max n m, ks ++ .colon :: (vs ++ [.closeBrace]), ?_, .lastEntry hderives hderives', ?_,
        ?_⟩
      · rw [hks, hc, hvs, hb]
        simp only [List.append_assoc, List.cons_append, List.nil_append]
      · omega
      · omega

theorem readPrimary_sound (h : readPrimary negate (steps + 1) c = .ok (e, d)) :
    Took negate .primary c e d := by
  obtain ⟨_ | ⟨⟨token, start, stop⟩, rest⟩, depth⟩ := c
  · cases h
  cases token with
  | null =>
      cases h
      exact ⟨0, [.null], rfl, .null, rfl, id⟩
  | bool b =>
      cases h
      exact ⟨0, [.bool b], rfl, .bool, rfl, id⟩
  | int i =>
      cases h
      exact ⟨0, [.int i], rfl, .int, rfl, id⟩
  | float x =>
      cases h
      exact ⟨0, [.float x], rfl, .float, rfl, id⟩
  | string s =>
      cases h
      exact ⟨0, [.string s], rfl, .string, rfl, id⟩
  | identifier name =>
      rw [readPrimary_identifier] at h
      split at h
      · cases h
        exact ⟨0, [.identifier name], rfl, .ident, rfl, id⟩
      · rename_i c₁ hopen
        obtain ⟨ho, hdepth⟩ := Cursor.accept?_some hopen
        obtain ⟨⟨args, c₂⟩, hargs, h⟩ := exists_of_bind_eq_ok h
        obtain ⟨n, ts, hts, hderives, hdepth₁, hfits⟩ := hs.items hargs
        cases h
        refine ⟨n, .identifier name :: .openParen :: ts, ?_, .call hderives,
          hdepth₁.trans hdepth, hdepth ▸ hfits⟩
        rw [hts] at ho
        exact congrArg (Token.identifier name :: ·) ho
  | openParen =>
      rw [readPrimary_openParen] at h
      obtain ⟨⟨inner, c₁⟩, hinner, h⟩ := exists_of_bind_eq_ok h
      obtain ⟨n, ts, hts, hderives, hdepth, hfits⟩ := hs.expression hinner
      obtain ⟨c₂, hclose, h⟩ := exists_of_bind_eq_ok h
      obtain ⟨hc, hdepth₁⟩ := Cursor.require_ok hclose
      cases h
      refine ⟨n, .openParen :: (ts ++ [.closeParen]), ?_, .paren hderives,
        hdepth₁.trans hdepth, hfits⟩
      show Token.openParen :: Cursor.tokens ⟨rest, depth⟩ = _
      rw [hts, hc]
      simp only [List.append_assoc, List.cons_append, List.nil_append]
  | openBracket =>
      rw [readPrimary_openBracket] at h
      obtain ⟨⟨elements, c₁⟩, helements, h⟩ := exists_of_bind_eq_ok h
      obtain ⟨n, ts, hts, hderives, hdepth, hfits⟩ := hs.items helements
      cases h
      exact ⟨n, .openBracket :: ts, congrArg (Token.openBracket :: ·) hts, .list hderives,
        hdepth, hfits⟩
  | openBrace =>
      rw [readPrimary_openBrace] at h
      obtain ⟨⟨entries, c₁⟩, hentries, h⟩ := exists_of_bind_eq_ok h
      obtain ⟨n, ts, hts, hderives, hdepth, hfits⟩ := hs.entries hentries
      cases h
      exact ⟨n, .openBrace :: ts, congrArg (Token.openBrace :: ·) hts, .map hderives,
        hdepth, hfits⟩
  | _ => cases h

end

theorem sound_zero : Sound negate 0 where
  expression h := by cases h
  chain h := by cases h
  operand h := by cases h
  links h := by cases h
  unary h := by cases h
  member h := by cases h
  memberSteps h := by cases h
  items h := by cases h
  entries h := by cases h
  primary h := by cases h

/-- **All readers are sound.** -/
theorem sound (negate : Expression → Expression) (steps : Nat) : Sound negate steps := by
  induction steps with
  | zero => exact sound_zero
  | succ steps ih =>
      exact {
        expression := readExpression_sound ih
        chain := readChain_sound ih
        operand := readOperand_sound ih
        links := readLinks_sound ih
        unary := readUnary_sound ih
        member := readMember_sound ih
        memberSteps := readSteps_sound ih
        items := readItems_sound ih
        entries := readEntries_sound ih
        primary := readPrimary_sound ih }

/-- **A sequence of tokens that is read stands for the expression that is read**, and its
nesting is within the limit. -/
theorem derives_of_ofTokensWith {lexemes : List Lexeme} {e : Expression}
    (h : ofTokensWith negate lexemes = .ok e) :
    ∃ n, Derives negate .expression n (lexemes.map Lexeme.token) e ∧ n ≤ maxDepth := by
  rw [ofTokensWith] at h
  obtain ⟨⟨e', c⟩, hread, h⟩ := exists_of_bind_eq_ok h
  obtain ⟨n, ts, hts, hderives, -, hfits⟩ := (sound negate _).expression hread
  dsimp only at h
  split at h
  · rename_i hrest
    cases h
    have hall : lexemes.map Lexeme.token = ts := by
      rw [Cursor.tokens, Cursor.tokens, hrest, List.map_nil, List.append_nil] at hts
      exact hts
    rw [hall]
    exact ⟨n, hderives, by simpa using hfits (Nat.zero_le _)⟩
  · cases h

end Expression
end Placement
