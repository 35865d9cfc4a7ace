import Placement.Proofs.Expression.Completeness
import Placement.Proofs.Expression.Soundness
/-! # One sequence of tokens, one expression

**The grammar is unambiguous** (`Derives.unique`): whatever follows, two derivations of one
form that start at the same token take the same tokens, for the same expression and with the
same nesting.  What follows must not hold on to the last operand (`Frees`), for then a
longer chain may begin with a shorter one.

The nesting has no bound here, so this says more than that the reader gives one answer: it
also holds of the texts that the reader refuses as too deep.  With what the reader accepts
and must accept it makes the reader decide the grammar (`ofTokens_decides_grammar`).
-/
namespace Placement

/-- No token of this rank or above comes first. -/
def Frees (rank : Nat) (ts : List Token) : Prop := ∀ t ∈ ts.head?, t.rank < rank

theorem Frees.mono {r s : Nat} {ts : List Token} (h : Frees r ts) (hrs : r ≤ s) : Frees s ts :=
  fun t ht => Nat.lt_of_lt_of_le (h t ht) hrs

theorem frees_nil (r : Nat) : Frees r [] := nofun

theorem frees_cons_iff {r : Nat} {t : Token} {ts : List Token} :
    Frees r (t :: ts) ↔ t.rank < r := by
  constructor
  · intro h
    exact h t rfl
  · rintro h _ ⟨⟩
    exact h

/-- No rank is above that of an opening parenthesis. -/
theorem frees_nine (ts : List Token) : Frees 9 ts := by
  intro t _
  cases t <;> exact of_decide_eq_true rfl

namespace Form

/-- The same form with so many links. -/
def withLinks : Form → Nat → Form
  | .chain level _, k => .chain level k
  | .steps _, k => .steps k
  | form, _ => form

/-- Items end with a token that ends items. -/
def Closes : Form → Prop
  | .items close => close.closes = true
  | _ => True

end Form

namespace Derives
open Expression
variable {negate : Expression → Expression} {form : Form} {n m : Nat}
  {ts us xs ys ls : List Token} {e d left : Expression} {t : Token}

theorem withLinks_links (form : Form) : form.withLinks (links form) = form := by
  cases form <;> rfl

/-- A derivation of a form begins with a shorter one, of so many links, and a link follows. -/
def Begins (negate : Expression → Expression) (form : Form) (j : Nat) (ts : List Token) : Prop :=
  ∃ m us d t rest, Derives negate (form.withLinks j) m us d ∧ ts = us ++ t :: rest ∧
    t.rank = bound form - 1

/-- One more link: either it is dropped, or it is kept behind the links that are dropped. -/
theorem begins_link {j : Nat} (rs : List Token) (h : Derives negate form n ls left)
    (ht : t.rank = bound form - 1) (ih : j < links form → Begins negate form j ls)
    (hj : j < links form + 1) :
    Begins negate form j (ls ++ t :: rs) := by
  by_cases hlast : j = links form
  · subst hlast
    exact ⟨n, ls, left, t, rs, by rwa [withLinks_links], rfl, ht⟩
  · obtain ⟨m, us, d, t', rest, h', rfl, ht'⟩ := ih (by omega)
    refine ⟨m, us, d, t', rest ++ t :: rs, h', ?_, ht'⟩
    rw [List.append_assoc, List.cons_append]

/-- **A long chain begins with each shorter one.** -/
theorem begins (h : Derives negate form n ts e) {j : Nat} (hj : j < links form) :
    Begins negate form j ts := by
  induction h with
  | @link _ _ _ _ _ rs _ _ _ _ h hjoin _ ih =>
      have hshorter := begins_link rs h (Level.rank_of_join? hjoin) ih hj
      exact hshorter
  | @select _ _ _ _ name h ih =>
      have hshorter := begins_link (t := .dot) [.identifier name] h rfl ih hj
      exact hshorter
  | @method _ _ _ _ us _ _ name h _ ih =>
      have hshorter := begins_link (t := .dot) (.identifier name :: .openParen :: us) h rfl ih hj
      exact hshorter
  | @index _ _ _ _ us _ _ h _ ih =>
      have hshorter := begins_link (t := .openBracket) (us ++ [.closeBracket]) h rfl ih hj
      exact hshorter
  | _ => exact absurd hj (Nat.not_lt_zero _)

/-- **A derivation is the only one from its first token on**: one of the same form, with no
more links, is the same, or has fewer links and is followed by another link. -/
def Settled (negate : Expression → Expression) (form : Form) (n : Nat) (ts : List Token)
    (e : Expression) : Prop :=
  ∀ ⦃j m : Nat⦄ ⦃us xs ys : List Token⦄ ⦃d : Expression⦄, form.Closes → j ≤ links form →
    Derives negate (form.withLinks j) m us d → ts ++ xs = us ++ ys →
    Frees (bound form) xs → Frees (bound form) ys →
    (j = links form → us = ts ∧ d = e ∧ m = n) ∧
    (j < links form → ¬ Frees (bound form - 1) ys)

namespace Settled

theorem same (h : Settled negate form n ts e) (hcloses : form.Closes)
    (h' : Derives negate form m us d) (heq : ts ++ xs = us ++ ys) (hx : Frees (bound form) xs)
    (hy : Frees (bound form) ys) : us = ts ∧ d = e ∧ m = n ∧ ys = xs := by
  obtain ⟨rfl, rfl, rfl⟩ :=
    (h hcloses (Nat.le_refl _) (by rwa [withLinks_links]) heq hx hy).1 rfl
  exact ⟨rfl, rfl, rfl, (List.append_cancel_left heq).symm⟩

/-- The same, before two tokens that do not hold on to what is derived. -/
theorem same_before (h : Settled negate form n ts e) (hcloses : form.Closes)
    (h' : Derives negate form m us d) {t' : Token} (heq : ts ++ t :: xs = us ++ t' :: ys)
    (ht : t.rank < bound form) (ht' : t'.rank < bound form) :
    us = ts ∧ d = e ∧ m = n ∧ t' :: ys = t :: xs :=
  h.same hcloses h' heq (frees_cons_iff.mpr ht) (frees_cons_iff.mpr ht')

/-- Where no link follows, the numbers of links agree as well. -/
theorem whole (h : Settled negate form n ts e) (hcloses : form.Closes) {k : Nat}
    (h' : Derives negate (form.withLinks k) m us d) (heq : ts ++ xs = us ++ ys)
    (hbound : 0 < bound form) (hlinks : links (form.withLinks k) = k)
    (hsame : (form.withLinks k).withLinks (links form) = form)
    (hbounds : bound (form.withLinks k) = bound form)
    (hx : Frees (bound form - 1) xs) (hy : Frees (bound form - 1) ys) :
    us = ts ∧ d = e ∧ m = n ∧ ys = xs := by
  have hx' := hx.mono (Nat.sub_le _ 1)
  have hy' := hy.mono (Nat.sub_le _ 1)
  rcases Nat.lt_trichotomy k (links form) with hlt | heq' | hgt
  · exact absurd hy ((h hcloses (Nat.le_of_lt hlt) h' heq hx' hy').2 hlt)
  · subst heq'
    rw [withLinks_links] at h'
    exact h.same hcloses h' heq hx' hy'
  · obtain ⟨m', us', d', t, rest, hshort, rfl, ht⟩ := begins h' (by rwa [hlinks])
    rw [hsame] at hshort
    rw [hbounds] at ht
    have hnext : Frees (bound form) (t :: rest ++ ys) := frees_cons_iff.mpr (by omega)
    obtain ⟨-, -, -, hrest⟩ := h.same hcloses hshort (by rw [heq]; simp) hx' hnext
    rw [← hrest, List.cons_append, frees_cons_iff, ht] at hx
    exact absurd hx (Nat.lt_irrefl _)

theorem whole_chain {level : Level} {k k' : Nat} (h : Settled negate (.chain level k) n ts e)
    (h' : Derives negate (.chain level k') m us d) (heq : ts ++ xs = us ++ ys)
    (hx : Frees level.rank xs) (hy : Frees level.rank ys) : us = ts ∧ d = e ∧ m = n ∧ ys = xs :=
  h.whole trivial (k := k') h' heq (Nat.succ_pos _) rfl rfl rfl hx hy

theorem whole_steps {k k' : Nat} (h : Settled negate (.steps k) n ts e)
    (h' : Derives negate (.steps k') m us d) (heq : ts ++ xs = us ++ ys)
    (hx : Frees 7 xs) (hy : Frees 7 ys) : us = ts ∧ d = e ∧ m = n ∧ ys = xs :=
  h.whole trivial (k := k') h' heq (Nat.succ_pos _) rfl rfl rfl hx hy

/-- Of a form without links only the whole is compared. -/
theorem of_same (hform : ∀ j, form.withLinks j = form) (hlinks : links form = 0)
    (h : ∀ {m : Nat} {us xs ys : List Token} {d : Expression}, form.Closes →
      Derives negate form m us d → ts ++ xs = us ++ ys → Frees (bound form) xs →
      Frees (bound form) ys → us = ts ∧ d = e ∧ m = n) : Settled negate form n ts e := by
  intro j m us xs ys d hcloses hj h' heq hx hy
  rw [hform] at h'
  exact ⟨fun _ => h hcloses h' heq hx hy, fun hlt => by omega⟩

/-- Of a form with one more link, what is derived with fewer links is settled before. -/
theorem of_link {k : Nat} {rs : List Token} (h : Settled negate form m us left)
    (hcloses : form.Closes) (hlinks : links form = k) (ht : t.rank + 1 = bound form)
    (hlonger : links (form.withLinks (k + 1)) = k + 1)
    (hforms : ∀ j, (form.withLinks (k + 1)).withLinks j = form.withLinks j)
    (hbounds : bound (form.withLinks (k + 1)) = bound form)
    (hlast : ∀ {m' : Nat} {us' xs ys : List Token} {d : Expression},
      Derives negate (form.withLinks (k + 1)) m' us' d → us ++ t :: rs ++ xs = us' ++ ys →
      Frees (bound form) xs → Frees (bound form) ys →
      us' = us ++ t :: rs ∧ d = e ∧ m' = n) :
    Settled negate (form.withLinks (k + 1)) n (us ++ t :: rs) e := by
  intro j m' us' xs ys d _ hj h' heq hx hy
  rw [hforms] at h'
  rw [hlonger] at hj ⊢
  rw [hbounds] at hx hy ⊢
  refine ⟨?_, ?_⟩
  · rintro rfl
    exact hlast h' heq hx hy
  · intro hlt hfrees
    rw [List.append_assoc, List.cons_append] at heq
    have hnext : Frees (bound form) (t :: (rs ++ xs)) := frees_cons_iff.mpr (by omega)
    obtain ⟨hsame, hshort⟩ := h hcloses (by omega) h' heq hnext hy
    by_cases hj' : j = links form
    · obtain ⟨rfl, -, -⟩ := hsame hj'
      rw [← List.append_cancel_left heq, frees_cons_iff] at hfrees
      omega
    · exact hshort (by omega) hfrees

end Settled

/-! ## Chains -/

theorem settled_first {level : Level} (h : Settled negate (.operand level) n ts e) :
    Settled negate (.chain level 0) n ts e := by
  intro j m us xs ys d _ hj h' heq hx hy
  obtain rfl : j = 0 := Nat.le_zero.mp hj
  refine ⟨fun _ => ?_, fun hlt => absurd hlt (Nat.lt_irrefl _)⟩
  cases h' with
  | first h' =>
      obtain ⟨rfl, rfl, rfl, -⟩ := h.same trivial h' heq hx hy
      exact ⟨rfl, rfl, rfl⟩

theorem settled_link {level : Level} {k : Nat} {rs : List Token} {right : Expression}
    {join : Expression → Expression → Expression}
    (hleft : Settled negate (.chain level k) n ls left) (hjoin : level.join? t = some join)
    (hright : Settled negate (.operand level) m rs right) :
    Settled negate (.chain level (k + 1)) (max n (k + 1 + m)) (ls ++ t :: rs)
      (join left right) := by
  have hrank := Level.rank_of_join? hjoin
  show Settled negate ((Form.chain level k).withLinks (k + 1)) _ _ _
  refine hleft.of_link trivial rfl (by rw [hrank]; rfl) rfl (fun _ => rfl) rfl ?_
  intro m' us' xs ys d h' heq hx hy
  cases h' with
  | link h' hjoin' hright' =>
      have hrank' := Level.rank_of_join? hjoin'
      simp only [List.append_assoc, List.cons_append] at heq
      obtain ⟨rfl, rfl, rfl, hrest⟩ := hleft.same_before trivial h' heq
        (by rw [hrank]; exact Nat.lt_succ_self _)
        (by rw [hrank']; exact Nat.lt_succ_self _)
      obtain ⟨rfl, hbehind⟩ := List.cons.inj hrest
      obtain rfl := Option.some.inj (hjoin'.symm.trans hjoin)
      obtain ⟨rfl, rfl, rfl, -⟩ := hright.same trivial hright' hbehind.symm hx hy
      exact ⟨rfl, rfl, rfl⟩

theorem settled_tighter {level tighter : Level} {k : Nat} (htighter : level.tighter? = some tighter)
    (h : Settled negate (.chain tighter k) n ts e) : Settled negate (.operand level) n ts e := by
  refine .of_same (fun _ => rfl) rfl fun _ h' heq hx hy => ?_
  cases h' with
  | tighter htighter' h' =>
      obtain rfl := Option.some.inj (htighter'.symm.trans htighter)
      have hrank := Level.rank_tighter htighter
      rw [bound, ← hrank] at hx hy
      obtain ⟨rfl, rfl, rfl, -⟩ := h.whole_chain h' heq hx hy
      exact ⟨rfl, rfl, rfl⟩
  | tightest htightest _ =>
      rw [htighter] at htightest
      cases htightest

theorem settled_tightest {level : Level} (htightest : level.tighter? = none)
    (h : Settled negate .unary n ts e) : Settled negate (.operand level) n ts e := by
  refine .of_same (fun _ => rfl) rfl fun _ h' heq hx hy => ?_
  cases h' with
  | tighter htighter _ =>
      rw [htightest] at htighter
      cases htighter
  | tightest _ h' =>
      rw [bound, Level.rank_tightest htightest] at hx hy
      obtain ⟨rfl, rfl, rfl, -⟩ := h.same trivial h' heq hx hy
      exact ⟨rfl, rfl, rfl⟩

/-! ## Expressions -/

theorem settled_bare {k : Nat} (h : Settled negate (.chain .disjunction k) n ts e) :
    Settled negate .expression (n + 1) ts e := by
  refine .of_same (fun _ => rfl) rfl fun _ h' heq hx hy => ?_
  cases h' with
  | bare h' =>
      obtain ⟨rfl, rfl, rfl, -⟩ := h.whole_chain h' heq (hx.mono (by decide)) (hy.mono (by decide))
      exact ⟨rfl, rfl, rfl⟩
  | conditional h' _ _ =>
      rw [List.append_assoc, List.cons_append] at heq
      obtain ⟨-, -, -, hrest⟩ := h.whole_chain h' heq (hx.mono (by decide))
        (frees_cons_iff.mpr (by decide))
      rw [← hrest, frees_cons_iff] at hx
      exact absurd hx (by decide)

theorem settled_conditional {k y z : Nat} {cs yts zts : List Token}
    {condition yes no : Expression}
    (hcondition : Settled negate (.chain .disjunction k) n cs condition)
    (hyes : Settled negate .expression y yts yes) (hno : Settled negate .expression z zts no) :
    Settled negate .expression (max n (max y z) + 1) (cs ++ .question :: (yts ++ .colon :: zts))
      (.conditional condition yes no) := by
  refine .of_same (fun _ => rfl) rfl fun _ h' heq hx hy => ?_
  simp only [List.append_assoc, List.cons_append] at heq
  cases h' with
  | bare h' =>
      obtain ⟨-, -, -, hrest⟩ := hcondition.whole_chain h' heq (frees_cons_iff.mpr (by decide))
        (hy.mono (by decide))
      rw [hrest, frees_cons_iff] at hy
      exact absurd hy (by decide)
  | conditional h' hyes' hno' =>
      simp only [List.append_assoc, List.cons_append] at heq
      obtain ⟨rfl, rfl, rfl, hrest⟩ := hcondition.whole_chain h' heq
        (frees_cons_iff.mpr (by decide)) (frees_cons_iff.mpr (by decide))
      obtain ⟨rfl, rfl, rfl, hrest'⟩ := hyes.same_before trivial hyes' (List.cons.inj hrest).2.symm
        (by decide) (by decide)
      obtain ⟨rfl, rfl, rfl, -⟩ := hno.same trivial hno' (List.cons.inj hrest').2.symm hx hy
      exact ⟨rfl, rfl, rfl⟩

/-! ## Operators in front, and member steps -/

/-- What a simple expression starts with. -/
theorem head_startsPrimary {k : Nat} {rest : List Token} (h : Derives negate (.steps k) m us d)
    (heq : t :: rest = us ++ ys) : t.startsPrimary = true := by
  obtain ⟨first, us', rfl, hfirst⟩ := h.starts
  rw [(List.cons.inj heq).1]
  exact hfirst

/-- What an expression starts with. -/
theorem head_startsExpression {rest : List Token} (h : Derives negate .expression m us d)
    (heq : t :: rest = us ++ ys) : t.startsExpression = true := by
  obtain ⟨first, us', rfl, hfirst⟩ := h.starts
  rw [(List.cons.inj heq).1]
  exact hfirst

theorem settled_not (h : Settled negate .unary n ts e) :
    Settled negate .unary (n + 1) (.not :: ts) (.unary .not e) := by
  refine .of_same (fun _ => rfl) rfl fun _ h' heq hx hy => ?_
  cases h' with
  | not h' =>
      obtain ⟨rfl, rfl, rfl, -⟩ := h.same trivial h' (List.cons.inj heq).2 hx hy
      exact ⟨rfl, rfl, rfl⟩
  | minus _ => cases (List.cons.inj heq).1
  | member h' => cases head_startsPrimary h' heq

theorem settled_minus (h : Settled negate .unary n ts e) :
    Settled negate .unary (n + 1) (.minus :: ts) (negate e) := by
  refine .of_same (fun _ => rfl) rfl fun _ h' heq hx hy => ?_
  cases h' with
  | not _ => cases (List.cons.inj heq).1
  | minus h' =>
      obtain ⟨rfl, rfl, rfl, -⟩ := h.same trivial h' (List.cons.inj heq).2 hx hy
      exact ⟨rfl, rfl, rfl⟩
  | member h' => cases head_startsPrimary h' heq

theorem settled_member {k : Nat} (hderives : Derives negate (.steps k) n ts e)
    (h : Settled negate (.steps k) n ts e) : Settled negate .unary n ts e := by
  refine .of_same (fun _ => rfl) rfl fun _ h' heq hx hy => ?_
  cases h' with
  | not _ => cases head_startsPrimary hderives heq.symm
  | minus _ => cases head_startsPrimary hderives heq.symm
  | member h' =>
      obtain ⟨rfl, rfl, rfl, -⟩ := h.whole_steps h' heq hx hy
      exact ⟨rfl, rfl, rfl⟩

theorem settled_simple (h : Settled negate .primary n ts e) : Settled negate (.steps 0) n ts e := by
  intro j m us xs ys d _ hj h' heq hx hy
  obtain rfl : j = 0 := Nat.le_zero.mp hj
  refine ⟨fun _ => ?_, fun hlt => absurd hlt (Nat.lt_irrefl _)⟩
  cases h' with
  | simple h' =>
      obtain ⟨rfl, rfl, rfl, -⟩ := h.same trivial h' heq hx hy
      exact ⟨rfl, rfl, rfl⟩

theorem settled_select {k : Nat} {name : String} (h : Settled negate (.steps k) n ts e) :
    Settled negate (.steps (k + 1)) (max n (k + 1)) (ts ++ [.dot, .identifier name])
      (.member e name) := by
  show Settled negate ((Form.steps k).withLinks (k + 1)) _ _ _
  refine h.of_link trivial rfl rfl rfl (fun _ => rfl) rfl fun h' heq hx hy => ?_
  simp only [List.append_assoc, List.cons_append, List.nil_append] at heq
  cases h' with
  | select h' =>
      simp only [List.append_assoc, List.cons_append, List.nil_append] at heq
      obtain ⟨rfl, rfl, rfl, hrest⟩ :=
        h.same_before trivial h' heq (Nat.lt_succ_self 7) (Nat.lt_succ_self 7)
      cases hrest
      exact ⟨rfl, rfl, rfl⟩
  | method h' _ =>
      simp only [List.append_assoc, List.cons_append] at heq
      obtain ⟨rfl, rfl, rfl, hrest⟩ :=
        h.same_before trivial h' heq (Nat.lt_succ_self 7) (Nat.lt_succ_self 7)
      cases hrest
      exact absurd (frees_cons_iff.mp hx) (Nat.lt_irrefl 8)
  | index h' _ =>
      simp only [List.append_assoc, List.cons_append] at heq
      obtain ⟨-, -, -, hrest⟩ :=
        h.same_before trivial h' heq (Nat.lt_succ_self 7) (Nat.lt_succ_self 7)
      cases hrest

theorem settled_method {k : Nat} {args : List Expression} {name : String}
    (h : Settled negate (.steps k) n ts e)
    (hargs : Settled negate (.items .closeParen) m us (.list args)) :
    Settled negate (.steps (k + 1)) (max n (k + 1 + m))
      (ts ++ .dot :: .identifier name :: .openParen :: us) (.method e name args) := by
  show Settled negate ((Form.steps k).withLinks (k + 1)) _ _ _
  refine h.of_link trivial rfl rfl rfl (fun _ => rfl) rfl fun h' heq hx hy => ?_
  simp only [List.append_assoc, List.cons_append] at heq
  cases h' with
  | select h' =>
      simp only [List.append_assoc, List.cons_append, List.nil_append] at heq
      obtain ⟨rfl, rfl, rfl, hrest⟩ :=
        h.same_before trivial h' heq (Nat.lt_succ_self 7) (Nat.lt_succ_self 7)
      cases hrest
      exact absurd (frees_cons_iff.mp hy) (Nat.lt_irrefl 8)
  | method h' hargs' =>
      simp only [List.append_assoc, List.cons_append] at heq
      obtain ⟨rfl, rfl, rfl, hrest⟩ :=
        h.same_before trivial h' heq (Nat.lt_succ_self 7) (Nat.lt_succ_self 7)
      simp only [List.cons.injEq, Token.identifier.injEq, true_and] at hrest
      obtain ⟨rfl, hbehind⟩ := hrest
      obtain ⟨rfl, hsame, rfl, -⟩ :=
        hargs.same rfl hargs' hbehind.symm (frees_nine _) (frees_nine _)
      cases hsame
      exact ⟨rfl, rfl, rfl⟩
  | index h' _ =>
      simp only [List.append_assoc, List.cons_append] at heq
      obtain ⟨-, -, -, hrest⟩ :=
        h.same_before trivial h' heq (Nat.lt_succ_self 7) (Nat.lt_succ_self 7)
      cases hrest

theorem settled_index {k : Nat} {position : Expression} (h : Settled negate (.steps k) n ts e)
    (hposition : Settled negate .expression m us position) :
    Settled negate (.steps (k + 1)) (max n (k + 1 + m))
      (ts ++ .openBracket :: (us ++ [.closeBracket])) (.index e position) := by
  show Settled negate ((Form.steps k).withLinks (k + 1)) _ _ _
  refine h.of_link trivial rfl rfl rfl (fun _ => rfl) rfl fun h' heq hx hy => ?_
  simp only [List.append_assoc, List.cons_append, List.nil_append] at heq
  cases h' with
  | select h' =>
      simp only [List.append_assoc, List.cons_append, List.nil_append] at heq
      obtain ⟨-, -, -, hrest⟩ :=
        h.same_before trivial h' heq (Nat.lt_succ_self 7) (Nat.lt_succ_self 7)
      cases hrest
  | method h' _ =>
      simp only [List.append_assoc, List.cons_append] at heq
      obtain ⟨-, -, -, hrest⟩ :=
        h.same_before trivial h' heq (Nat.lt_succ_self 7) (Nat.lt_succ_self 7)
      cases hrest
  | index h' hposition' =>
      simp only [List.append_assoc, List.cons_append, List.nil_append] at heq
      obtain ⟨rfl, rfl, rfl, hrest⟩ :=
        h.same_before trivial h' heq (Nat.lt_succ_self 7) (Nat.lt_succ_self 7)
      obtain ⟨rfl, rfl, rfl, -⟩ := hposition.same_before trivial hposition'
        (List.cons.inj hrest).2.symm (by decide) (by decide)
      exact ⟨rfl, rfl, rfl⟩

/-! ## Simple expressions -/

/-- A token after which only one simple expression can come, of this token alone. -/
theorem settled_token (h : ∀ {m : Nat} {us : List Token} {d : Expression},
    Derives negate .primary m (t :: us) d → us = [] ∧ d = e ∧ m = 0) :
    Settled negate .primary 0 [t] e := by
  refine .of_same (fun _ => rfl) rfl fun _ h' heq _ _ => ?_
  obtain ⟨first, rest, rfl, -⟩ := h'.starts
  obtain ⟨rfl, -⟩ := List.cons.inj heq
  obtain ⟨rfl, rfl, rfl⟩ := h h'
  exact ⟨rfl, rfl, rfl⟩

theorem settled_ident {name : String} :
    Settled negate .primary 0 [.identifier name] (.ident name) := by
  refine .of_same (fun _ => rfl) rfl fun _ h' heq hx _ => ?_
  cases h' with
  | ident =>
      cases heq
      exact ⟨rfl, rfl, rfl⟩
  | call _ =>
      cases heq
      exact absurd (frees_cons_iff.mp hx) (Nat.lt_irrefl 8)
  | _ => cases heq

theorem settled_call {name : String} {args : List Expression}
    (h : Settled negate (.items .closeParen) n ts (.list args)) :
    Settled negate .primary n (.identifier name :: .openParen :: ts) (.call name args) := by
  refine .of_same (fun _ => rfl) rfl fun _ h' heq _ hy => ?_
  simp only [List.cons_append] at heq
  cases h' with
  | ident =>
      cases heq
      exact absurd (frees_cons_iff.mp hy) (Nat.lt_irrefl 8)
  | call h' =>
      simp only [List.cons_append, List.cons.injEq, Token.identifier.injEq, true_and] at heq
      obtain ⟨rfl, hbehind⟩ := heq
      obtain ⟨rfl, hsame, rfl, -⟩ := h.same rfl h' hbehind (frees_nine _) (frees_nine _)
      cases hsame
      exact ⟨rfl, rfl, rfl⟩
  | _ => cases heq

theorem settled_paren (h : Settled negate .expression n ts e) :
    Settled negate .primary n (.openParen :: (ts ++ [.closeParen])) e := by
  refine .of_same (fun _ => rfl) rfl fun _ h' heq _ _ => ?_
  simp only [List.append_assoc, List.cons_append, List.nil_append] at heq
  cases h' with
  | paren h' =>
      simp only [List.append_assoc, List.cons_append, List.nil_append] at heq
      obtain ⟨rfl, rfl, rfl, -⟩ := h.same_before trivial h' (List.cons.inj heq).2
        (by decide) (by decide)
      exact ⟨rfl, rfl, rfl⟩
  | _ => cases heq

theorem settled_list {elements : List Expression}
    (h : Settled negate (.items .closeBracket) n ts (.list elements)) :
    Settled negate .primary n (.openBracket :: ts) (.list elements) := by
  refine .of_same (fun _ => rfl) rfl fun _ h' heq _ _ => ?_
  cases h' with
  | list h' =>
      obtain ⟨rfl, hsame, rfl, -⟩ :=
        h.same rfl h' (List.cons.inj heq).2 (frees_nine _) (frees_nine _)
      cases hsame
      exact ⟨rfl, rfl, rfl⟩
  | _ => cases heq

theorem settled_map {pairs : List (Expression × Expression)}
    (h : Settled negate .entries n ts (.map pairs)) :
    Settled negate .primary n (.openBrace :: ts) (.map pairs) := by
  refine .of_same (fun _ => rfl) rfl fun _ h' heq _ _ => ?_
  cases h' with
  | map h' =>
      obtain ⟨rfl, hsame, rfl, -⟩ :=
        h.same trivial h' (List.cons.inj heq).2 (frees_nine _) (frees_nine _)
      cases hsame
      exact ⟨rfl, rfl, rfl⟩
  | _ => cases heq

/-! ## Items and entries -/

theorem settled_noItems {close : Token} : Settled negate (.items close) 0 [close] (.list []) := by
  refine .of_same (fun _ => rfl) rfl fun hcloses h' heq _ _ => ?_
  have hstart := (closes_spec hcloses).1
  cases h' with
  | noItems => exact ⟨rfl, rfl, rfl⟩
  | lastItem h' =>
      simp only [List.append_assoc, List.cons_append, List.nil_append] at heq
      rw [head_startsExpression h' heq] at hstart
      cases hstart
  | moreItems h' _ =>
      simp only [List.append_assoc, List.cons_append, List.nil_append] at heq
      rw [head_startsExpression h' heq] at hstart
      cases hstart

theorem settled_lastItem {close : Token} (hderives : Derives negate .expression n ts e)
    (h : Settled negate .expression n ts e) :
    Settled negate (.items close) n (ts ++ [close]) (.list [e]) := by
  refine .of_same (fun _ => rfl) rfl fun hcloses h' heq _ _ => ?_
  obtain ⟨hstart, hrank, hcomma⟩ := closes_spec hcloses
  have hclose : close.rank < 1 := by omega
  simp only [List.append_assoc, List.cons_append, List.nil_append] at heq
  cases h' with
  | noItems =>
      rw [head_startsExpression hderives heq.symm] at hstart
      cases hstart
  | lastItem h' =>
      simp only [List.append_assoc, List.cons_append, List.nil_append] at heq
      obtain ⟨rfl, rfl, rfl, -⟩ := h.same_before trivial h' heq hclose hclose
      exact ⟨rfl, rfl, rfl⟩
  | moreItems h' _ =>
      simp only [List.append_assoc, List.cons_append] at heq
      obtain ⟨-, -, -, hrest⟩ := h.same_before trivial h' heq hclose (by decide)
      exact absurd (List.cons.inj hrest).1.symm hcomma

theorem settled_moreItems {close : Token} {rest : List Expression}
    (hderives : Derives negate .expression n ts e) (h : Settled negate .expression n ts e)
    (hrest : Settled negate (.items close) m us (.list rest)) :
    Settled negate (.items close) (max n m) (ts ++ .comma :: us) (.list (e :: rest)) := by
  refine .of_same (fun _ => rfl) rfl fun hcloses h' heq _ _ => ?_
  obtain ⟨hstart, hrank, hcomma⟩ := closes_spec hcloses
  have hclose : close.rank < 1 := by omega
  simp only [List.append_assoc, List.cons_append] at heq
  cases h' with
  | noItems =>
      rw [head_startsExpression hderives heq.symm] at hstart
      cases hstart
  | lastItem h' =>
      simp only [List.append_assoc, List.cons_append, List.nil_append] at heq
      obtain ⟨-, -, -, hnext⟩ := h.same_before trivial h' heq (by decide) hclose
      exact absurd (List.cons.inj hnext).1 hcomma
  | moreItems h' hrest' =>
      simp only [List.append_assoc, List.cons_append] at heq
      obtain ⟨rfl, rfl, rfl, hnext⟩ := h.same_before trivial h' heq (by decide)
        (by decide)
      obtain ⟨rfl, hsame, rfl, -⟩ := hrest.same hcloses hrest' (List.cons.inj hnext).2.symm
        (frees_nine _) (frees_nine _)
      cases hsame
      exact ⟨rfl, rfl, rfl⟩

theorem settled_noEntries : Settled negate .entries 0 [.closeBrace] (.map []) := by
  refine .of_same (fun _ => rfl) rfl fun _ h' heq _ _ => ?_
  cases h' with
  | noEntries => exact ⟨rfl, rfl, rfl⟩
  | lastEntry h' _ =>
      simp only [List.append_assoc, List.cons_append, List.nil_append] at heq
      cases head_startsExpression h' heq
  | moreEntries h' _ _ =>
      simp only [List.append_assoc, List.cons_append, List.nil_append] at heq
      cases head_startsExpression h' heq

theorem settled_lastEntry {vs : List Token} {value : Expression}
    (hderives : Derives negate .expression n ts e) (hkey : Settled negate .expression n ts e)
    (hvalue : Settled negate .expression m vs value) :
    Settled negate .entries (max n m) (ts ++ .colon :: (vs ++ [.closeBrace]))
      (.map [(e, value)]) := by
  refine .of_same (fun _ => rfl) rfl fun _ h' heq _ _ => ?_
  simp only [List.append_assoc, List.cons_append, List.nil_append] at heq
  cases h' with
  | noEntries => cases head_startsExpression hderives heq.symm
  | lastEntry hkey' hvalue' =>
      simp only [List.append_assoc, List.cons_append, List.nil_append] at heq
      obtain ⟨rfl, rfl, rfl, hrest⟩ :=
        hkey.same_before trivial hkey' heq (by decide) (by decide)
      obtain ⟨rfl, rfl, rfl, -⟩ := hvalue.same_before trivial hvalue' (List.cons.inj hrest).2.symm
        (by decide) (by decide)
      exact ⟨rfl, rfl, rfl⟩
  | moreEntries hkey' hvalue' _ =>
      simp only [List.append_assoc, List.cons_append] at heq
      obtain ⟨-, -, -, hrest⟩ := hkey.same_before trivial hkey' heq (by decide) (by decide)
      obtain ⟨-, -, -, hnext⟩ := hvalue.same_before trivial hvalue' (List.cons.inj hrest).2.symm
        (by decide) (by decide)
      cases (List.cons.inj hnext).1

theorem settled_moreEntries {l : Nat} {vs rest : List Token} {value : Expression}
    {pairs : List (Expression × Expression)} (hderives : Derives negate .expression n ts e)
    (hkey : Settled negate .expression n ts e) (hvalue : Settled negate .expression m vs value)
    (hpairs : Settled negate .entries l rest (.map pairs)) :
    Settled negate .entries (max n (max m l)) (ts ++ .colon :: (vs ++ .comma :: rest))
      (.map ((e, value) :: pairs)) := by
  refine .of_same (fun _ => rfl) rfl fun _ h' heq _ _ => ?_
  simp only [List.append_assoc, List.cons_append] at heq
  cases h' with
  | noEntries => cases head_startsExpression hderives heq.symm
  | lastEntry hkey' hvalue' =>
      simp only [List.append_assoc, List.cons_append, List.nil_append] at heq
      obtain ⟨-, -, -, hrest⟩ := hkey.same_before trivial hkey' heq (by decide) (by decide)
      obtain ⟨-, -, -, hnext⟩ := hvalue.same_before trivial hvalue' (List.cons.inj hrest).2.symm
        (by decide) (by decide)
      cases (List.cons.inj hnext).1
  | moreEntries hkey' hvalue' hpairs' =>
      simp only [List.append_assoc, List.cons_append] at heq
      obtain ⟨rfl, rfl, rfl, hrest⟩ :=
        hkey.same_before trivial hkey' heq (by decide) (by decide)
      obtain ⟨rfl, rfl, rfl, hnext⟩ := hvalue.same_before trivial hvalue'
        (List.cons.inj hrest).2.symm (by decide) (by decide)
      obtain ⟨rfl, hsame, rfl, -⟩ := hpairs.same trivial hpairs' (List.cons.inj hnext).2.symm
        (frees_nine _) (frees_nine _)
      cases hsame
      exact ⟨rfl, rfl, rfl⟩

theorem settled (h : Derives negate form n ts e) : Settled negate form n ts e := by
  induction h with
  | bare _ ih => exact settled_bare ih
  | conditional _ _ _ ih ihyes ihno => exact settled_conditional ih ihyes ihno
  | first _ ih => exact settled_first ih
  | link _ hjoin _ ih ihright => exact settled_link ih hjoin ihright
  | tighter htighter _ ih => exact settled_tighter htighter ih
  | tightest htightest _ ih => exact settled_tightest htightest ih
  | not _ ih => exact settled_not ih
  | minus _ ih => exact settled_minus ih
  | member h ih => exact settled_member h ih
  | simple _ ih => exact settled_simple ih
  | select _ ih => exact settled_select ih
  | method _ _ ih ihargs => exact settled_method ih ihargs
  | index _ _ ih ihposition => exact settled_index ih ihposition
  | ident => exact settled_ident
  | call _ ih => exact settled_call ih
  | paren _ ih => exact settled_paren ih
  | list _ ih => exact settled_list ih
  | map _ ih => exact settled_map ih
  | noItems => exact settled_noItems
  | lastItem h ih => exact settled_lastItem h ih
  | moreItems h _ ih ihrest => exact settled_moreItems h ih ihrest
  | noEntries => exact settled_noEntries
  | lastEntry h _ ih ihvalue => exact settled_lastEntry h ih ihvalue
  | moreEntries h _ _ ih ihvalue ihrest => exact settled_moreEntries h ih ihvalue ihrest
  -- What is left is a literal, which is one token.
  | _ =>
      refine settled_token fun h' => ?_
      cases h'
      exact ⟨rfl, rfl, rfl⟩

/-- **The grammar is unambiguous**: a sequence of tokens stands for one expression at most,
and nests in one way. -/
theorem unique (h : Derives negate .expression n ts e) (h' : Derives negate .expression m ts d) :
    d = e ∧ m = n := by
  have hall : ts ++ [] = ts ++ [] := rfl
  obtain ⟨-, rfl, rfl, -⟩ := h.settled.same trivial h' hall (frees_nil 1) (frees_nil 1)
  exact ⟨rfl, rfl⟩

end Derives

namespace Expression

end Expression
end Placement
