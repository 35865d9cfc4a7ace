import Placement.Proofs.Expression.Grammar
/-! # What a reader must accept

**A sequence of tokens that is derived is read**, as the expression it stands for, unless
the reading nests too deep; then the reader says so and nothing else.  Readers look one token
ahead, so this needs that the tokens behind do not hold on to the last operand (`Stops`);
and it needs enough steps, twenty for each token still to come.

A chain of operators is read operand by operand.  What is shown of it is that the reader,
after the operands of a derivation, is about to look for further links (`Reads`).
-/
namespace Placement

/-- Nothing of a rank holds on to what stands before these lexemes. -/
def Stops (rank : Nat) (lexemes : List Lexeme) : Prop :=
  ∀ lexeme ∈ lexemes.head?, lexeme.token.rank < rank

theorem Stops.mono {r s : Nat} {ys : List Lexeme} (h : Stops r ys) (hrs : r ≤ s) : Stops s ys :=
  fun y hy => Nat.lt_of_lt_of_le (h y hy) hrs

theorem stops_cons {r : Nat} {y : Lexeme} (h : y.token.rank < r) (ys : List Lexeme) :
    Stops r (y :: ys) := by
  rintro _ ⟨⟩
  exact h

namespace Cursor
variable {x : Lexeme} {xs ys : List Lexeme} {depth : Nat} {t : Token}

theorem accept?_cons (h : x.token = t) :
    accept? ⟨x :: xs, depth⟩ t = some ⟨xs, depth⟩ :=
  if_pos (congrArg some h)

theorem accept?_cons_of_ne (h : x.token ≠ t) : accept? ⟨x :: xs, depth⟩ t = none :=
  if_neg fun heq => h (Option.some.inj heq)

theorem accept?_of_stops {r : Nat} (h : Stops r ys) (ht : r ≤ t.rank) :
    accept? ⟨ys, depth⟩ t = none := by
  cases ys with
  | nil => exact if_neg nofun
  | cons y rest =>
      refine accept?_cons_of_ne fun heq => ?_
      have hy := h y rfl
      rw [heq] at hy
      omega

theorem require_cons (h : x.token = t) : require ⟨x :: xs, depth⟩ t = .ok ⟨xs, depth⟩ :=
  if_pos h

theorem name_cons {name : String} (h : x.token = .identifier name) :
    Cursor.name ⟨x :: xs, depth⟩ = .ok (name, ⟨xs, depth⟩) := by
  obtain ⟨token, start, stop⟩ := x
  subst h
  rfl

theorem deeper_of_le (h : depth + 1 ≤ maxDepth) :
    deeper ⟨xs, depth⟩ = .ok ⟨xs, depth + 1⟩ :=
  if_neg (Nat.not_lt.mpr h)

theorem deeper_of_not_le (h : ¬ depth + 1 ≤ maxDepth) :
    deeper ⟨xs, depth⟩ = .error .tooDeep :=
  if_pos (Nat.not_le.mp h)

end Cursor

namespace Expression
variable {negate : Expression → Expression}

/-- The answer of a reader at a depth to what nests so deep. -/
def answer {α : Type} (depth n : Nat) (x : α) (ys : List Lexeme) : Except Fault (α × Cursor) :=
  if depth + n ≤ maxDepth then .ok (x, ⟨ys, depth⟩) else .error .tooDeep

theorem answer_of_le {α : Type} {depth n : Nat} (h : depth + n ≤ maxDepth) (x : α)
    (ys : List Lexeme) : answer depth n x ys = .ok (x, ⟨ys, depth⟩) :=
  if_pos h

theorem answer_of_not_le {α : Type} {depth n : Nat} (h : ¬ depth + n ≤ maxDepth) (x : α)
    (ys : List Lexeme) : answer depth n x ys = .error .tooDeep :=
  if_neg h

theorem answer_bind_ok {α β : Type} {depth n : Nat} (build : α → β) (x : α) (ys : List Lexeme) :
    (answer depth n x ys >>= fun p => .ok (build p.1, p.2)) = answer depth n (build x) ys := by
  by_cases hfits : depth + n ≤ maxDepth
  · rw [answer_of_le hfits, answer_of_le hfits]
    rfl
  · rw [answer_of_not_le hfits, answer_of_not_le hfits]
    rfl

/-- Tokens of this rank may not follow. -/
def bound : Form → Nat
  | .expression => 1
  | .chain level _ => level.rank + 1
  | .operand level => level.rank + 1
  | .unary => 7
  | .steps _ => 8
  | .primary => 8
  | .items _ => 9
  | .entries => 9

/-- The steps that a reader takes before it passes a token. -/
def cost : Form → Nat
  | .expression => 14
  | .chain level _ => 16 - 2 * level.rank
  | .operand level => 16 - 2 * level.rank
  | .unary => 3
  | .steps _ => 1
  | .primary => 1
  | .items _ => 15
  | .entries => 15

/-- A reader with so many steps, at a depth, stands before lexemes for some tokens. -/
structure Ready (rank cost : Nat) (ts : List Token) (xs ys : List Lexeme) (depth steps : Nat) :
    Prop where
  tokens : xs.map Lexeme.token = ts
  stops : Stops rank ys
  depth_le : depth ≤ maxDepth
  enough : 20 * (xs.length + ys.length) + cost ≤ steps

/-- **What a reader does that stands before a form.** -/
def Reads (negate : Expression → Expression) (form : Form) (n : Nat) (ts : List Token)
    (e : Expression) : Prop :=
  ∀ (xs ys : List Lexeme) (depth steps : Nat),
    Ready (bound form) (cost form) ts xs ys depth steps →
    match form with
    | .expression => readExpression negate steps ⟨xs ++ ys, depth⟩ = answer depth n e ys
    | .chain level k =>
        (readOperand negate steps level ⟨xs ++ ys, depth⟩ >>= fun p =>
          readLinks negate steps level p.1 p.2) =
        if depth + n ≤ maxDepth then readLinks negate (steps - k) level e ⟨ys, depth + k⟩
        else .error .tooDeep
    | .operand level => readOperand negate steps level ⟨xs ++ ys, depth⟩ = answer depth n e ys
    | .unary => readUnary negate steps ⟨xs ++ ys, depth⟩ = answer depth n e ys
    | .steps k =>
        (readPrimary negate steps ⟨xs ++ ys, depth⟩ >>= fun p =>
          readSteps negate steps p.1 p.2) =
        if depth + n ≤ maxDepth then readSteps negate (steps - k) e ⟨ys, depth + k⟩
        else .error .tooDeep
    | .primary => readPrimary negate steps ⟨xs ++ ys, depth⟩ = answer depth n e ys
    | .items close => close.closes = true → ∀ es, e = .list es →
        readItems negate steps close ⟨xs ++ ys, depth⟩ = answer depth n es ys
    | .entries => ∀ es, e = .map es →
        readEntries negate steps ⟨xs ++ ys, depth⟩ = answer depth n es ys

theorem ok_bind {α β : Type} (x : α) (f : α → Except Fault β) : (.ok x >>= f) = f x := rfl

theorem error_bind {α β : Type} (fault : Fault) (f : α → Except Fault β) :
    (.error fault >>= f) = .error fault := rfl

section
variable {n : Nat} {ts : List Token} {e : Expression} {xs ys : List Lexeme} {depth steps : Nat}

/-! ## Chains -/

theorem readLinks_of_stops {level : Level} (h : Stops level.rank ys) (left : Expression) :
    readLinks negate (steps + 1) level left ⟨ys, depth⟩ = .ok (left, ⟨ys, depth⟩) := by
  have hnone : Option.bind (Cursor.current? ⟨ys, depth⟩) level.join? = none := by
    cases ys with
    | nil => rfl
    | cons y rest => exact Level.join?_eq_none (h y rfl)
  rw [readLinks, hnone]

theorem readChain_eq {level : Level} (c : Cursor) :
    readChain negate (steps + 1) level c =
      ((readOperand negate steps level c >>= fun p => readLinks negate steps level p.1 p.2) >>=
        fun p => .ok (p.1, p.2.backTo c.depth)) := by
  rw [readChain, bind_assoc]

/-- A chain that has ended. -/
theorem readChain_of_reads {level : Level} {k : Nat} (h : Reads negate (.chain level k) n ts e)
    (hk : k ≤ ts.length)
    (hready : Ready level.rank (17 - 2 * level.rank) ts xs ys depth steps) :
    readChain negate steps level ⟨xs ++ ys, depth⟩ = answer depth n e ys := by
  obtain ⟨htokens, hstops, hdepth, henough⟩ := hready
  have hlength : xs.length = ts.length := by rw [← htokens, List.length_map]
  have hrank : level.rank ≤ 6 := by cases level <;> decide
  obtain ⟨s, rfl⟩ : ∃ s, steps = s + 1 := ⟨steps - 1, by omega⟩
  rw [readChain_eq, h _ _ _ _ ⟨htokens, hstops.mono (Nat.le_succ _), hdepth, by
    rw [cost]; omega⟩]
  by_cases hfits : depth + n ≤ maxDepth
  · obtain ⟨left, hleft⟩ : ∃ left, s - k = left + 1 := ⟨s - k - 1, by omega⟩
    rw [if_pos hfits, hleft, readLinks_of_stops hstops, answer_of_le hfits]
    rfl
  · rw [if_neg hfits, answer_of_not_le hfits]
    rfl

theorem reads_first {level : Level} (h : Reads negate (.operand level) n ts e) :
    Reads negate (.chain level 0) n ts e := by
  intro xs ys depth steps hready
  show (readOperand negate steps level _ >>= _) = _
  rw [h _ _ _ _ hready]
  by_cases hfits : depth + n ≤ maxDepth
  · rw [answer_of_le hfits, if_pos hfits, ok_bind]
    rfl
  · rw [answer_of_not_le hfits, if_neg hfits, error_bind]

theorem reads_link {level : Level} {k m : Nat} {ls rs : List Token} {left right : Expression}
    {t : Token} {join : Expression → Expression → Expression}
    (hleft : Reads negate (.chain level k) n ls left) (hk : k ≤ n ∧ k ≤ ls.length)
    (hjoin : level.join? t = some join) (hright : Reads negate (.operand level) m rs right) :
    Reads negate (.chain level (k + 1)) (max n (k + 1 + m)) (ls ++ t :: rs) (join left right) := by
  rintro xs ys depth steps ⟨htokens, hstops, hdepth, henough⟩
  obtain ⟨xs₁, xs', rfl, hls, hxs'⟩ := List.map_eq_append_iff.mp htokens
  obtain ⟨x, xs₂, rfl, ht, hrs⟩ := List.map_eq_cons_iff.mp hxs'
  have hlength : xs₁.length = ls.length := by rw [← hls, List.length_map]
  have hrank := Level.rank_of_join? hjoin
  have hle : level.rank ≤ 6 := by cases level <;> decide
  simp only [cost, List.length_append, List.length_cons] at henough
  have hfirst := hleft xs₁ (x :: (xs₂ ++ ys)) depth steps
    ⟨hls, stops_cons (by rw [ht, bound, hrank]; omega) _, hdepth, by
      simp only [cost, List.length_append, List.length_cons]; omega⟩
  dsimp only at hfirst ⊢
  rw [List.append_assoc, List.cons_append, hfirst]
  -- The reader stops where the nesting first exceeds the limit: in the links before, at the
  -- operator, or in the operand behind it.
  by_cases hfits : depth + n ≤ maxDepth
  · rw [if_pos hfits]
    obtain ⟨s, hs⟩ : ∃ s, steps - k = s + 1 := ⟨steps - k - 1, by omega⟩
    have hcurrent : Option.bind (Cursor.current? ⟨x :: (xs₂ ++ ys), depth + k⟩) level.join? =
        some join := by
      rw [← hjoin, ← ht]
      rfl
    rw [hs, readLinks, hcurrent]
    dsimp only [Cursor.advance, List.tail]
    by_cases hdeeper : depth + k + 1 ≤ maxDepth
    · have hsecond := hright xs₂ ys (depth + k + 1) s
        ⟨hrs, hstops, hdeeper, by simp only [cost]; omega⟩
      dsimp only at hsecond
      rw [Cursor.deeper_of_le hdeeper, ok_bind, hsecond]
      by_cases hfits' : depth + k + 1 + m ≤ maxDepth
      · rw [answer_of_le hfits', ok_bind, if_pos (by omega)]
        dsimp only
        rw [show steps - (k + 1) = s by omega]
        rfl
      · rw [answer_of_not_le hfits', error_bind, if_neg (by omega)]
    · rw [Cursor.deeper_of_not_le hdeeper, error_bind, if_neg (by omega)]
  · rw [if_neg hfits, if_neg (by omega)]

theorem reads_tighter {level tighter : Level} {k : Nat} (htighter : level.tighter? = some tighter)
    (h : Reads negate (.chain tighter k) n ts e) (hk : k ≤ ts.length) :
    Reads negate (.operand level) n ts e := by
  rintro xs ys depth steps ⟨htokens, hstops, hdepth, henough⟩
  have hrank := Level.rank_tighter htighter
  have hle : tighter.rank ≤ 6 := by cases tighter <;> decide
  dsimp only [cost] at henough
  obtain ⟨s, rfl⟩ : ∃ s, steps = s + 1 := ⟨steps - 1, by omega⟩
  dsimp only
  rw [readOperand, htighter]
  exact readChain_of_reads h hk ⟨htokens, by rw [hrank]; exact hstops, hdepth, by omega⟩

theorem reads_tightest {level : Level} (htightest : level.tighter? = none)
    (h : Reads negate .unary n ts e) : Reads negate (.operand level) n ts e := by
  rintro xs ys depth steps ⟨htokens, hstops, hdepth, henough⟩
  have hrank := Level.rank_tightest htightest
  dsimp only [cost] at henough
  obtain ⟨s, rfl⟩ : ∃ s, steps = s + 1 := ⟨steps - 1, by omega⟩
  dsimp only
  rw [readOperand, htightest]
  rw [bound, hrank] at hstops
  exact h _ _ _ _ ⟨htokens, hstops, hdepth, by rw [cost]; omega⟩

/-! ## Expressions -/

theorem reads_bare {k : Nat} (h : Reads negate (.chain .disjunction k) n ts e)
    (hk : k ≤ ts.length) : Reads negate .expression (n + 1) ts e := by
  rintro xs ys depth steps ⟨htokens, hstops, hdepth, henough⟩
  dsimp only [bound, cost] at hstops henough
  obtain ⟨s, rfl⟩ : ∃ s, steps = s + 1 := ⟨steps - 1, by omega⟩
  dsimp only
  rw [readExpression]
  by_cases hdeeper : depth + 1 ≤ maxDepth
  · rw [Cursor.deeper_of_le hdeeper, ok_bind, readChain_of_reads h hk
      ⟨htokens, hstops.mono (by decide), hdeeper, by dsimp only [Level.rank]; omega⟩]
    by_cases hfits : depth + 1 + n ≤ maxDepth
    · rw [answer_of_le hfits, answer_of_le (by omega), ok_bind]
      dsimp only
      rw [Cursor.accept?_of_stops hstops (by decide)]
      rfl
    · rw [answer_of_not_le hfits, answer_of_not_le (by omega), error_bind]
  · rw [Cursor.deeper_of_not_le hdeeper, error_bind, answer_of_not_le (by omega)]

theorem reads_conditional {k y z : Nat} {cs yts zts : List Token} {condition yes no : Expression}
    (hcondition : Reads negate (.chain .disjunction k) n cs condition) (hk : k ≤ cs.length)
    (hyes : Reads negate .expression y yts yes) (hno : Reads negate .expression z zts no) :
    Reads negate .expression (max n (max y z) + 1) (cs ++ .question :: (yts ++ .colon :: zts))
      (.conditional condition yes no) := by
  rintro xs ys depth steps ⟨htokens, hstops, hdepth, henough⟩
  obtain ⟨xs₁, xs', rfl, hcs, hxs'⟩ := List.map_eq_append_iff.mp htokens
  obtain ⟨q, xs'', rfl, hq, hxs''⟩ := List.map_eq_cons_iff.mp hxs'
  obtain ⟨xs₂, xs', rfl, hyts, hxs'⟩ := List.map_eq_append_iff.mp hxs''
  obtain ⟨c, xs₃, rfl, hc, hzts⟩ := List.map_eq_cons_iff.mp hxs'
  simp only [cost, List.length_append, List.length_cons] at henough
  obtain ⟨s, rfl⟩ : ∃ s, steps = s + 1 := ⟨steps - 1, by omega⟩
  simp only [List.append_assoc, List.cons_append]
  rw [readExpression]
  by_cases hdeeper : depth + 1 ≤ maxDepth
  · rw [Cursor.deeper_of_le hdeeper, ok_bind, readChain_of_reads hcondition hk
      ⟨hcs, stops_cons (by rw [hq]; decide) _, hdeeper, by
        simp only [Level.rank, List.length_append, List.length_cons]; omega⟩]
    by_cases hfits : depth + 1 + n ≤ maxDepth
    · have hsecond := hyes xs₂ (c :: (xs₃ ++ ys)) (depth + 1) s
        ⟨hyts, stops_cons (by rw [hc]; decide) _, hdeeper, by
          simp only [cost, List.length_append, List.length_cons]; omega⟩
      rw [answer_of_le hfits, ok_bind]
      dsimp only at hsecond ⊢
      rw [Cursor.accept?_cons hq]
      dsimp only
      rw [hsecond]
      by_cases hfits' : depth + 1 + y ≤ maxDepth
      · have hthird := hno xs₃ ys (depth + 1) s
          ⟨hzts, hstops, hdeeper, by simp only [cost]; omega⟩
        rw [answer_of_le hfits', ok_bind]
        dsimp only at hthird ⊢
        rw [Cursor.require_cons hc, ok_bind, hthird]
        by_cases hfits'' : depth + 1 + z ≤ maxDepth
        · rw [answer_of_le hfits'', answer_of_le (by omega)]
          rfl
        · rw [answer_of_not_le hfits'', answer_of_not_le (by omega), error_bind]
      · rw [answer_of_not_le hfits', answer_of_not_le (by omega), error_bind]
    · rw [answer_of_not_le hfits, answer_of_not_le (by omega), error_bind]
  · rw [Cursor.deeper_of_not_le hdeeper, error_bind, answer_of_not_le (by omega)]

/-! ## Operators in front -/

/-- An operator in front, given what the reader does at it. -/
theorem reads_prefix {t : Token} {build : Expression → Expression}
    (hreader : ∀ s c, c.current? = some t → readUnary negate (s + 1) c =
      (c.advance.deeper >>= fun c => readUnary negate s c >>= fun p =>
        .ok (build p.1, p.2.higher)))
    (h : Reads negate .unary n ts e) : Reads negate .unary (n + 1) (t :: ts) (build e) := by
  rintro xs ys depth steps ⟨htokens, hstops, hdepth, henough⟩
  obtain ⟨x, xs', rfl, hx, hts⟩ := List.map_eq_cons_iff.mp htokens
  simp only [cost, List.length_cons] at henough
  obtain ⟨s, rfl⟩ : ∃ s, steps = s + 1 := ⟨steps - 1, by omega⟩
  dsimp only [List.cons_append]
  rw [hreader s ⟨x :: (xs' ++ ys), depth⟩ (congrArg some hx)]
  dsimp only [Cursor.advance, List.tail]
  by_cases hdeeper : depth + 1 ≤ maxDepth
  · have hoperand := h xs' ys (depth + 1) s
      ⟨hts, hstops, hdeeper, by simp only [cost]; omega⟩
    dsimp only at hoperand
    rw [Cursor.deeper_of_le hdeeper, ok_bind, hoperand]
    by_cases hfits : depth + 1 + n ≤ maxDepth
    · rw [answer_of_le hfits, answer_of_le (by omega)]
      rfl
    · rw [answer_of_not_le hfits, answer_of_not_le (by omega), error_bind]
  · rw [Cursor.deeper_of_not_le hdeeper, error_bind, answer_of_not_le (by omega)]

theorem reads_not (h : Reads negate .unary n ts e) :
    Reads negate .unary (n + 1) (.not :: ts) (.unary .not e) := by
  refine reads_prefix (fun s c hc => ?_) h
  rw [readUnary, hc]

theorem reads_minus (h : Reads negate .unary n ts e) :
    Reads negate .unary (n + 1) (.minus :: ts) (negate e) := by
  refine reads_prefix (fun s c hc => ?_) h
  rw [readUnary, hc]

/-! ## Member steps -/

theorem readSteps_of_stops (h : Stops 7 ys) (target : Expression) :
    readSteps negate (steps + 1) target ⟨ys, depth⟩ = .ok (target, ⟨ys, depth⟩) := by
  rw [readSteps]
  split
  · rename_i hdot
    cases ys with
    | nil => cases hdot
    | cons y rest =>
        have hy := h y rfl
        rw [Option.some.inj hdot] at hy
        exact absurd hy (by decide)
  · rename_i hbracket
    cases ys with
    | nil => cases hbracket
    | cons y rest =>
        have hy := h y rfl
        rw [Option.some.inj hbracket] at hy
        exact absurd hy (by decide)
  · rfl

theorem readMember_eq (c : Cursor) :
    readMember negate (steps + 1) c =
      ((readPrimary negate steps c >>= fun p => readSteps negate steps p.1 p.2) >>=
        fun p => .ok (p.1, p.2.backTo c.depth)) := by
  rw [readMember, bind_assoc]

theorem reads_member {k : Nat} (h : Reads negate (.steps k) n ts e) (hk : k ≤ ts.length)
    (hstarts : Derives.StartsWith Token.startsPrimary ts) : Reads negate .unary n ts e := by
  rintro xs ys depth steps ⟨htokens, hstops, hdepth, henough⟩
  have hlength : xs.length = ts.length := by rw [← htokens, List.length_map]
  dsimp only [bound, cost] at hstops henough
  obtain ⟨s, rfl⟩ : ∃ s, steps = s + 2 := ⟨steps - 2, by omega⟩
  have hfirst := h xs ys depth s
    ⟨htokens, hstops.mono (show 7 ≤ 8 by decide), hdepth, by rw [cost]; omega⟩
  have hmember : readMember negate (s + 1) ⟨xs ++ ys, depth⟩ = answer depth n e ys := by
    dsimp only at hfirst
    rw [readMember_eq, hfirst]
    by_cases hfits : depth + n ≤ maxDepth
    · obtain ⟨left, hleft⟩ : ∃ left, s - k = left + 1 := ⟨s - k - 1, by omega⟩
      rw [if_pos hfits, hleft, readSteps_of_stops hstops, answer_of_le hfits]
      rfl
    · rw [if_neg hfits, answer_of_not_le hfits]
      rfl
  -- No operator stands in front: the first token starts a simple expression.
  obtain ⟨t, us, hts, ht⟩ := hstarts
  rw [hts] at htokens
  obtain ⟨x, xs', rfl, hx, -⟩ := List.map_eq_cons_iff.mp htokens
  dsimp only
  rw [readUnary]
  split
  · rename_i hnot
    rw [← hx, Option.some.inj hnot] at ht
    cases ht
  · rename_i hminus
    rw [← hx, Option.some.inj hminus] at ht
    cases ht
  · exact hmember

theorem reads_simple (h : Reads negate .primary n ts e) : Reads negate (.steps 0) n ts e := by
  intro xs ys depth steps hready
  show (readPrimary negate steps _ >>= _) = _
  rw [h _ _ _ _ hready]
  by_cases hfits : depth + n ≤ maxDepth
  · rw [answer_of_le hfits, if_pos hfits, ok_bind]
    rfl
  · rw [answer_of_not_le hfits, if_neg hfits, error_bind]

theorem reads_select {k : Nat} {name : String} (h : Reads negate (.steps k) n ts e)
    (hk : k ≤ n ∧ k ≤ ts.length) :
    Reads negate (.steps (k + 1)) (max n (k + 1)) (ts ++ [.dot, .identifier name])
      (.member e name) := by
  rintro xs ys depth steps ⟨htokens, hstops, hdepth, henough⟩
  obtain ⟨xs₁, xs', rfl, hts, hxs'⟩ := List.map_eq_append_iff.mp htokens
  obtain ⟨⟨token, start, stop⟩, xs'', rfl, hdot, hxs''⟩ := List.map_eq_cons_iff.mp hxs'
  obtain ⟨x, xs', rfl, hname, hnil⟩ := List.map_eq_cons_iff.mp hxs''
  rw [List.map_eq_nil_iff] at hnil
  subst hnil
  cases hdot
  have hlength : xs₁.length = ts.length := by rw [← hts, List.length_map]
  simp only [cost, List.length_append, List.length_cons, List.length_nil] at henough
  have hfirst := h xs₁ (⟨.dot, start, stop⟩ :: x :: ys) depth steps
    ⟨hts, stops_cons (show 7 < 8 by decide) _, hdepth, by
      simp only [cost, List.length_cons]; omega⟩
  dsimp only at hfirst ⊢
  simp only [List.append_assoc, List.cons_append, List.nil_append]
  rw [hfirst]
  by_cases hfits : depth + n ≤ maxDepth
  · obtain ⟨s, hs⟩ : ∃ s, steps - k = s + 1 := ⟨steps - k - 1, by omega⟩
    rw [if_pos hfits, hs, readSteps]
    dsimp only [Cursor.current?, Cursor.advance, List.head?, List.tail, Option.map]
    by_cases hdeeper : depth + k + 1 ≤ maxDepth
    · rw [Cursor.deeper_of_le hdeeper, ok_bind, Cursor.name_cons hname, ok_bind,
        if_pos (by omega)]
      dsimp only
      rw [Cursor.accept?_of_stops hstops (by exact Nat.le_refl 8),
        show steps - (k + 1) = s by omega]
      rfl
    · rw [Cursor.deeper_of_not_le hdeeper, error_bind, if_neg (by omega)]
  · rw [if_neg hfits, if_neg (by omega)]

theorem reads_method {k m : Nat} {us : List Token} {args : List Expression} {name : String}
    (h : Reads negate (.steps k) n ts e) (hk : k ≤ n ∧ k ≤ ts.length)
    (hargs : Reads negate (.items .closeParen) m us (.list args)) :
    Reads negate (.steps (k + 1)) (max n (k + 1 + m))
      (ts ++ .dot :: .identifier name :: .openParen :: us) (.method e name args) := by
  rintro xs ys depth steps ⟨htokens, hstops, hdepth, henough⟩
  obtain ⟨xs₁, xs', rfl, hts, hxs'⟩ := List.map_eq_append_iff.mp htokens
  obtain ⟨⟨token, start, stop⟩, xs'', rfl, hdot, hxs''⟩ := List.map_eq_cons_iff.mp hxs'
  obtain ⟨x, xs', rfl, hname, hxs'⟩ := List.map_eq_cons_iff.mp hxs''
  obtain ⟨o, xs₂, rfl, hopen, hus⟩ := List.map_eq_cons_iff.mp hxs'
  cases hdot
  have hlength : xs₁.length = ts.length := by rw [← hts, List.length_map]
  simp only [cost, List.length_append, List.length_cons] at henough
  have hfirst := h xs₁ (⟨.dot, start, stop⟩ :: x :: o :: (xs₂ ++ ys)) depth steps
    ⟨hts, stops_cons (show 7 < 8 by decide) _, hdepth, by
      simp only [cost, List.length_append, List.length_cons]; omega⟩
  dsimp only at hfirst ⊢
  simp only [List.append_assoc, List.cons_append]
  rw [hfirst]
  by_cases hfits : depth + n ≤ maxDepth
  · obtain ⟨s, hs⟩ : ∃ s, steps - k = s + 1 := ⟨steps - k - 1, by omega⟩
    rw [if_pos hfits, hs, readSteps]
    dsimp only [Cursor.current?, Cursor.advance, List.head?, List.tail, Option.map]
    by_cases hdeeper : depth + k + 1 ≤ maxDepth
    · have hsecond := hargs xs₂ ys (depth + k + 1) s
        ⟨hus, hstops.mono (show 8 ≤ 9 by decide), hdeeper, by simp only [cost]; omega⟩ rfl args rfl
      rw [Cursor.deeper_of_le hdeeper, ok_bind, Cursor.name_cons hname, ok_bind]
      dsimp only
      rw [Cursor.accept?_cons hopen]
      dsimp only
      rw [hsecond]
      by_cases hfits' : depth + k + 1 + m ≤ maxDepth
      · rw [answer_of_le hfits', if_pos (by omega), show steps - (k + 1) = s by omega]
        rfl
      · rw [answer_of_not_le hfits', if_neg (by omega)]
        rfl
    · rw [Cursor.deeper_of_not_le hdeeper, error_bind, if_neg (by omega)]
  · rw [if_neg hfits, if_neg (by omega)]

theorem reads_index {k m : Nat} {us : List Token} {position : Expression}
    (h : Reads negate (.steps k) n ts e) (hk : k ≤ n ∧ k ≤ ts.length)
    (hposition : Reads negate .expression m us position) :
    Reads negate (.steps (k + 1)) (max n (k + 1 + m))
      (ts ++ .openBracket :: (us ++ [.closeBracket])) (.index e position) := by
  rintro xs ys depth steps ⟨htokens, hstops, hdepth, henough⟩
  obtain ⟨xs₁, xs', rfl, hts, hxs'⟩ := List.map_eq_append_iff.mp htokens
  obtain ⟨⟨token, start, stop⟩, xs'', rfl, hopen, hxs''⟩ := List.map_eq_cons_iff.mp hxs'
  obtain ⟨xs₂, xs', rfl, hus, hxs'⟩ := List.map_eq_append_iff.mp hxs''
  obtain ⟨c, xs'', rfl, hclose, hnil⟩ := List.map_eq_cons_iff.mp hxs'
  rw [List.map_eq_nil_iff] at hnil
  subst hnil
  cases hopen
  have hlength : xs₁.length = ts.length := by rw [← hts, List.length_map]
  simp only [cost, List.length_append, List.length_cons, List.length_nil] at henough
  have hfirst := h xs₁ (⟨.openBracket, start, stop⟩ :: (xs₂ ++ c :: ys)) depth steps
    ⟨hts, stops_cons (show 7 < 8 by decide) _, hdepth, by
      simp only [cost, List.length_append, List.length_cons]; omega⟩
  dsimp only at hfirst ⊢
  simp only [List.append_assoc, List.cons_append, List.nil_append]
  rw [hfirst]
  by_cases hfits : depth + n ≤ maxDepth
  · obtain ⟨s, hs⟩ : ∃ s, steps - k = s + 1 := ⟨steps - k - 1, by omega⟩
    rw [if_pos hfits, hs, readSteps]
    dsimp only [Cursor.current?, Cursor.advance, List.head?, List.tail, Option.map]
    by_cases hdeeper : depth + k + 1 ≤ maxDepth
    · have hsecond := hposition xs₂ (c :: ys) (depth + k + 1) s
        ⟨hus, stops_cons (by rw [hclose]; decide) _, hdeeper, by
          simp only [cost, List.length_cons]; omega⟩
      dsimp only at hsecond
      rw [Cursor.deeper_of_le hdeeper, ok_bind, hsecond]
      by_cases hfits' : depth + k + 1 + m ≤ maxDepth
      · rw [answer_of_le hfits', ok_bind, if_pos (by omega), show steps - (k + 1) = s by omega]
        dsimp only
        rw [Cursor.require_cons hclose, ok_bind]
        rfl
      · rw [answer_of_not_le hfits', error_bind, if_neg (by omega)]
    · rw [Cursor.deeper_of_not_le hdeeper, error_bind, if_neg (by omega)]
  · rw [if_neg hfits, if_neg (by omega)]

/-! ## Simple expressions -/

/-- A token that is an expression by itself. -/
theorem reads_token {t : Token}
    (hreader : ∀ s x rest depth, x.token = t →
      readPrimary negate (s + 1) ⟨x :: rest, depth⟩ = .ok (e, ⟨rest, depth⟩)) :
    Reads negate .primary 0 [t] e := by
  rintro xs ys depth steps ⟨htokens, hstops, hdepth, henough⟩
  obtain ⟨x, xs', rfl, hx, hnil⟩ := List.map_eq_cons_iff.mp htokens
  rw [List.map_eq_nil_iff] at hnil
  subst hnil
  dsimp only [cost] at henough
  obtain ⟨s, rfl⟩ : ∃ s, steps = s + 1 := ⟨steps - 1, by omega⟩
  dsimp only [List.cons_append, List.nil_append]
  rw [hreader s x ys depth hx, answer_of_le (by omega)]

theorem reads_null : Reads negate .primary 0 [.null] (.literal .null) := by
  refine reads_token ?_
  rintro s ⟨token, start, stop⟩ rest depth ⟨⟩
  rfl

theorem reads_bool {b : Bool} : Reads negate .primary 0 [.bool b] (.literal (.bool b)) := by
  refine reads_token ?_
  rintro s ⟨token, start, stop⟩ rest depth ⟨⟩
  rfl

theorem reads_int {i : Int64} : Reads negate .primary 0 [.int i] (.literal (.int i)) := by
  refine reads_token ?_
  rintro s ⟨token, start, stop⟩ rest depth ⟨⟩
  rfl

theorem reads_float {x : Float} : Reads negate .primary 0 [.float x] (.literal (.float x)) := by
  refine reads_token ?_
  rintro s ⟨token, start, stop⟩ rest depth ⟨⟩
  rfl

theorem reads_string {s : String} : Reads negate .primary 0 [.string s] (.literal (.string s)) := by
  refine reads_token ?_
  rintro steps ⟨token, start, stop⟩ rest depth ⟨⟩
  rfl

/-- A name; the next token must not make it a call. -/
theorem reads_ident {name : String} : Reads negate .primary 0 [.identifier name] (.ident name) := by
  rintro xs ys depth steps ⟨htokens, hstops, hdepth, henough⟩
  obtain ⟨⟨token, start, stop⟩, xs', rfl, hx, hnil⟩ := List.map_eq_cons_iff.mp htokens
  rw [List.map_eq_nil_iff] at hnil
  subst hnil
  cases hx
  dsimp only [cost] at henough
  obtain ⟨s, rfl⟩ : ∃ s, steps = s + 1 := ⟨steps - 1, by omega⟩
  dsimp only [List.cons_append, List.nil_append]
  rw [readPrimary_identifier, answer_of_le (by omega),
    Cursor.accept?_of_stops hstops (by exact Nat.le_refl 8)]

theorem reads_call {name : String} {args : List Expression}
    (h : Reads negate (.items .closeParen) n ts (.list args)) :
    Reads negate .primary n (.identifier name :: .openParen :: ts) (.call name args) := by
  rintro xs ys depth steps ⟨htokens, hstops, hdepth, henough⟩
  obtain ⟨⟨token, start, stop⟩, xs', rfl, hx, hxs'⟩ := List.map_eq_cons_iff.mp htokens
  obtain ⟨o, xs₁, rfl, hopen, hts⟩ := List.map_eq_cons_iff.mp hxs'
  cases hx
  simp only [cost, List.length_cons] at henough
  obtain ⟨s, rfl⟩ : ∃ s, steps = s + 1 := ⟨steps - 1, by omega⟩
  have hitems := h xs₁ ys depth s
    ⟨hts, hstops.mono (show 8 ≤ 9 by decide), hdepth, by simp only [cost]; omega⟩ rfl args rfl
  dsimp only [List.cons_append]
  rw [readPrimary_identifier, Cursor.accept?_cons hopen]
  dsimp only
  rw [hitems]
  exact answer_bind_ok (Expression.call name) _ _

theorem reads_paren (h : Reads negate .expression n ts e) :
    Reads negate .primary n (.openParen :: (ts ++ [.closeParen])) e := by
  rintro xs ys depth steps ⟨htokens, hstops, hdepth, henough⟩
  obtain ⟨⟨token, start, stop⟩, xs', rfl, hx, hxs'⟩ := List.map_eq_cons_iff.mp htokens
  obtain ⟨xs₁, xs'', rfl, hts, hxs''⟩ := List.map_eq_append_iff.mp hxs'
  obtain ⟨c, xs', rfl, hclose, hnil⟩ := List.map_eq_cons_iff.mp hxs''
  rw [List.map_eq_nil_iff] at hnil
  subst hnil
  cases hx
  simp only [cost, List.length_append, List.length_cons, List.length_nil] at henough
  obtain ⟨s, rfl⟩ : ∃ s, steps = s + 1 := ⟨steps - 1, by omega⟩
  have hinner := h xs₁ (c :: ys) depth s
    ⟨hts, stops_cons (by rw [hclose]; decide) _, hdepth, by
      simp only [cost, List.length_cons]; omega⟩
  simp only [List.append_assoc, List.cons_append, List.nil_append] at hinner ⊢
  rw [readPrimary_openParen, hinner]
  by_cases hfits : depth + n ≤ maxDepth
  · rw [answer_of_le hfits, answer_of_le hfits, ok_bind]
    dsimp only
    rw [Cursor.require_cons hclose]
    rfl
  · rw [answer_of_not_le hfits, answer_of_not_le hfits]
    rfl

theorem reads_list {elements : List Expression}
    (h : Reads negate (.items .closeBracket) n ts (.list elements)) :
    Reads negate .primary n (.openBracket :: ts) (.list elements) := by
  rintro xs ys depth steps ⟨htokens, hstops, hdepth, henough⟩
  obtain ⟨⟨token, start, stop⟩, xs₁, rfl, hx, hts⟩ := List.map_eq_cons_iff.mp htokens
  cases hx
  simp only [cost, List.length_cons] at henough
  obtain ⟨s, rfl⟩ : ∃ s, steps = s + 1 := ⟨steps - 1, by omega⟩
  have hitems := h xs₁ ys depth s
    ⟨hts, hstops.mono (show 8 ≤ 9 by decide), hdepth, by simp only [cost]; omega⟩ rfl elements rfl
  dsimp only [List.cons_append]
  rw [readPrimary_openBracket, hitems]
  exact answer_bind_ok Expression.list _ _

theorem reads_map {pairs : List (Expression × Expression)}
    (h : Reads negate .entries n ts (.map pairs)) :
    Reads negate .primary n (.openBrace :: ts) (.map pairs) := by
  rintro xs ys depth steps ⟨htokens, hstops, hdepth, henough⟩
  obtain ⟨⟨token, start, stop⟩, xs₁, rfl, hx, hts⟩ := List.map_eq_cons_iff.mp htokens
  cases hx
  simp only [cost, List.length_cons] at henough
  obtain ⟨s, rfl⟩ : ∃ s, steps = s + 1 := ⟨steps - 1, by omega⟩
  have hentries := h xs₁ ys depth s
    ⟨hts, hstops.mono (show 8 ≤ 9 by decide), hdepth, by simp only [cost]; omega⟩ pairs rfl
  dsimp only [List.cons_append]
  rw [readPrimary_openBrace, hentries]
  exact answer_bind_ok Expression.map _ _

/-! ## Items and entries -/

theorem accept?_of_starts {t : Token} (hstarts : Derives.StartsWith Token.startsExpression ts)
    (ht : t.startsExpression = false) (hts : xs.map Lexeme.token = ts) (ys : List Lexeme) :
    Cursor.accept? ⟨xs ++ ys, depth⟩ t = none := by
  obtain ⟨first, us, rfl, hfirst⟩ := hstarts
  obtain ⟨x, xs', rfl, hx, -⟩ := List.map_eq_cons_iff.mp hts
  refine Cursor.accept?_cons_of_ne fun heq => ?_
  rw [← hx, heq, ht] at hfirst
  cases hfirst

theorem closes_spec {close : Token} (h : close.closes = true) :
    close.startsExpression = false ∧ close.rank = 0 ∧ close ≠ .comma := by
  cases close with
  | closeParen => exact ⟨rfl, rfl, nofun⟩
  | closeBracket => exact ⟨rfl, rfl, nofun⟩
  | _ => cases h

theorem reads_noItems {close : Token} : Reads negate (.items close) 0 [close] (.list []) := by
  rintro xs ys depth steps ⟨htokens, hstops, hdepth, henough⟩ hcloses _ ⟨⟩
  obtain ⟨x, xs', rfl, hx, hnil⟩ := List.map_eq_cons_iff.mp htokens
  rw [List.map_eq_nil_iff] at hnil
  subst hnil
  dsimp only [cost] at henough
  obtain ⟨s, rfl⟩ : ∃ s, steps = s + 1 := ⟨steps - 1, by omega⟩
  rw [List.cons_append, readItems, Cursor.accept?_cons hx, answer_of_le (by omega)]
  rfl

theorem reads_lastItem {close : Token}
    (hstarts : Derives.StartsWith Token.startsExpression ts)
    (h : Reads negate .expression n ts e) :
    Reads negate (.items close) n (ts ++ [close]) (.list [e]) := by
  rintro xs ys depth steps ⟨htokens, hstops, hdepth, henough⟩ hcloses _ ⟨⟩
  obtain ⟨hstart, hrank, hcomma⟩ := closes_spec hcloses
  obtain ⟨xs₁, xs', rfl, hts, hxs'⟩ := List.map_eq_append_iff.mp htokens
  obtain ⟨c, xs'', rfl, hclose, hnil⟩ := List.map_eq_cons_iff.mp hxs'
  rw [List.map_eq_nil_iff] at hnil
  subst hnil
  simp only [cost, List.length_append, List.length_cons, List.length_nil] at henough
  obtain ⟨s, rfl⟩ : ∃ s, steps = s + 1 := ⟨steps - 1, by omega⟩
  have hitem := h xs₁ (c :: ys) depth s
    ⟨hts, stops_cons (by rw [hclose, hrank]; decide) _, hdepth, by
      simp only [cost, List.length_cons]; omega⟩
  simp only [List.append_assoc, List.cons_append, List.nil_append] at hitem ⊢
  rw [readItems, accept?_of_starts hstarts hstart hts]
  dsimp only
  rw [hitem]
  by_cases hfits : depth + n ≤ maxDepth
  · rw [answer_of_le hfits, answer_of_le hfits, ok_bind]
    dsimp only
    rw [Cursor.accept?_cons_of_ne (by rw [hclose]; exact hcomma)]
    dsimp only
    rw [Cursor.require_cons hclose]
    rfl
  · rw [answer_of_not_le hfits, answer_of_not_le hfits]
    rfl

theorem reads_moreItems {close : Token} {m : Nat} {us : List Token} {rest : List Expression}
    (hstarts : Derives.StartsWith Token.startsExpression ts)
    (h : Reads negate .expression n ts e) (hrest : Reads negate (.items close) m us (.list rest)) :
    Reads negate (.items close) (max n m) (ts ++ .comma :: us) (.list (e :: rest)) := by
  rintro xs ys depth steps ⟨htokens, hstops, hdepth, henough⟩ hcloses _ ⟨⟩
  obtain ⟨hstart, hrank, -⟩ := closes_spec hcloses
  obtain ⟨xs₁, xs', rfl, hts, hxs'⟩ := List.map_eq_append_iff.mp htokens
  obtain ⟨c, xs₂, rfl, hcomma, hus⟩ := List.map_eq_cons_iff.mp hxs'
  simp only [cost, List.length_append, List.length_cons] at henough
  obtain ⟨s, rfl⟩ : ∃ s, steps = s + 1 := ⟨steps - 1, by omega⟩
  have hitem := h xs₁ (c :: (xs₂ ++ ys)) depth s
    ⟨hts, stops_cons (by rw [hcomma]; decide) _, hdepth, by
      simp only [cost, List.length_append, List.length_cons]; omega⟩
  have hitems := hrest xs₂ ys depth s
    ⟨hus, hstops, hdepth, by simp only [cost]; omega⟩ hcloses rest rfl
  simp only [List.append_assoc, List.cons_append] at hitem ⊢
  rw [readItems, accept?_of_starts hstarts hstart hts]
  dsimp only
  rw [hitem]
  by_cases hfits : depth + n ≤ maxDepth
  · rw [answer_of_le hfits, ok_bind]
    dsimp only
    rw [Cursor.accept?_cons hcomma]
    dsimp only
    rw [hitems]
    by_cases hfits' : depth + m ≤ maxDepth
    · rw [answer_of_le hfits', answer_of_le (by omega)]
      rfl
    · rw [answer_of_not_le hfits', answer_of_not_le (by omega)]
      rfl
  · rw [answer_of_not_le hfits, answer_of_not_le (by omega)]
    rfl

theorem reads_noEntries : Reads negate .entries 0 [.closeBrace] (.map []) := by
  rintro xs ys depth steps ⟨htokens, hstops, hdepth, henough⟩ _ ⟨⟩
  obtain ⟨x, xs', rfl, hx, hnil⟩ := List.map_eq_cons_iff.mp htokens
  rw [List.map_eq_nil_iff] at hnil
  subst hnil
  dsimp only [cost] at henough
  obtain ⟨s, rfl⟩ : ∃ s, steps = s + 1 := ⟨steps - 1, by omega⟩
  rw [List.cons_append, readEntries, Cursor.accept?_cons hx, answer_of_le (by omega)]
  rfl

theorem reads_lastEntry {m : Nat} {ks vs : List Token} {key value : Expression}
    (hstarts : Derives.StartsWith Token.startsExpression ks)
    (hkey : Reads negate .expression n ks key) (hvalue : Reads negate .expression m vs value) :
    Reads negate .entries (max n m) (ks ++ .colon :: (vs ++ [.closeBrace]))
      (.map [(key, value)]) := by
  rintro xs ys depth steps ⟨htokens, hstops, hdepth, henough⟩ _ ⟨⟩
  obtain ⟨xs₁, xs', rfl, hks, hxs'⟩ := List.map_eq_append_iff.mp htokens
  obtain ⟨c, xs'', rfl, hcolon, hxs''⟩ := List.map_eq_cons_iff.mp hxs'
  obtain ⟨xs₂, xs', rfl, hvs, hxs'⟩ := List.map_eq_append_iff.mp hxs''
  obtain ⟨b, xs'', rfl, hclose, hnil⟩ := List.map_eq_cons_iff.mp hxs'
  rw [List.map_eq_nil_iff] at hnil
  subst hnil
  simp only [cost, List.length_append, List.length_cons, List.length_nil] at henough
  obtain ⟨s, rfl⟩ : ∃ s, steps = s + 1 := ⟨steps - 1, by omega⟩
  have hfirst := hkey xs₁ (c :: (xs₂ ++ b :: ys)) depth s
    ⟨hks, stops_cons (by rw [hcolon]; decide) _, hdepth, by
      simp only [cost, List.length_append, List.length_cons]; omega⟩
  have hsecond := hvalue xs₂ (b :: ys) depth s
    ⟨hvs, stops_cons (by rw [hclose]; decide) _, hdepth, by
      simp only [cost, List.length_cons]; omega⟩
  simp only [List.append_assoc, List.cons_append, List.nil_append] at hfirst hsecond ⊢
  rw [readEntries, accept?_of_starts hstarts rfl hks]
  dsimp only
  rw [hfirst]
  by_cases hfits : depth + n ≤ maxDepth
  · rw [answer_of_le hfits, ok_bind]
    dsimp only
    rw [Cursor.require_cons hcolon, ok_bind, hsecond]
    by_cases hfits' : depth + m ≤ maxDepth
    · rw [answer_of_le hfits', answer_of_le (by omega), ok_bind]
      dsimp only
      rw [Cursor.accept?_cons_of_ne (by rw [hclose]; nofun)]
      dsimp only
      rw [Cursor.require_cons hclose]
      rfl
    · rw [answer_of_not_le hfits', answer_of_not_le (by omega)]
      rfl
  · rw [answer_of_not_le hfits, answer_of_not_le (by omega)]
    rfl

theorem reads_moreEntries {m l : Nat} {ks vs us : List Token} {key value : Expression}
    {rest : List (Expression × Expression)}
    (hstarts : Derives.StartsWith Token.startsExpression ks)
    (hkey : Reads negate .expression n ks key) (hvalue : Reads negate .expression m vs value)
    (hrest : Reads negate .entries l us (.map rest)) :
    Reads negate .entries (max n (max m l)) (ks ++ .colon :: (vs ++ .comma :: us))
      (.map ((key, value) :: rest)) := by
  rintro xs ys depth steps ⟨htokens, hstops, hdepth, henough⟩ _ ⟨⟩
  obtain ⟨xs₁, xs', rfl, hks, hxs'⟩ := List.map_eq_append_iff.mp htokens
  obtain ⟨c, xs'', rfl, hcolon, hxs''⟩ := List.map_eq_cons_iff.mp hxs'
  obtain ⟨xs₂, xs', rfl, hvs, hxs'⟩ := List.map_eq_append_iff.mp hxs''
  obtain ⟨b, xs₃, rfl, hcomma, hus⟩ := List.map_eq_cons_iff.mp hxs'
  simp only [cost, List.length_append, List.length_cons] at henough
  obtain ⟨s, rfl⟩ : ∃ s, steps = s + 1 := ⟨steps - 1, by omega⟩
  have hfirst := hkey xs₁ (c :: (xs₂ ++ b :: (xs₃ ++ ys))) depth s
    ⟨hks, stops_cons (by rw [hcolon]; decide) _, hdepth, by
      simp only [cost, List.length_append, List.length_cons]; omega⟩
  have hsecond := hvalue xs₂ (b :: (xs₃ ++ ys)) depth s
    ⟨hvs, stops_cons (by rw [hcomma]; decide) _, hdepth, by
      simp only [cost, List.length_append, List.length_cons]; omega⟩
  have hthird := hrest xs₃ ys depth s
    ⟨hus, hstops, hdepth, by simp only [cost]; omega⟩ rest rfl
  simp only [List.append_assoc, List.cons_append] at hfirst hsecond ⊢
  rw [readEntries, accept?_of_starts hstarts rfl hks]
  dsimp only
  rw [hfirst]
  by_cases hfits : depth + n ≤ maxDepth
  · rw [answer_of_le hfits, ok_bind]
    dsimp only
    rw [Cursor.require_cons hcolon, ok_bind, hsecond]
    by_cases hfits' : depth + m ≤ maxDepth
    · rw [answer_of_le hfits', ok_bind]
      dsimp only
      rw [Cursor.accept?_cons hcomma]
      dsimp only
      rw [hthird]
      by_cases hfits'' : depth + l ≤ maxDepth
      · rw [answer_of_le hfits'', answer_of_le (by omega)]
        rfl
      · rw [answer_of_not_le hfits'', answer_of_not_le (by omega)]
        rfl
    · rw [answer_of_not_le hfits', answer_of_not_le (by omega)]
      rfl
  · rw [answer_of_not_le hfits, answer_of_not_le (by omega)]
    rfl

end

/-- **What is derived is read.** -/
theorem reads_of_derives {form : Form} {n : Nat} {ts : List Token} {e : Expression}
    (h : Derives negate form n ts e) : Reads negate form n ts e := by
  induction h with
  | bare h ih => exact reads_bare ih h.links_le.2
  | conditional h _ _ ih ihyes ihno => exact reads_conditional ih h.links_le.2 ihyes ihno
  | first _ ih => exact reads_first ih
  | link h hjoin _ ih ihright => exact reads_link ih h.links_le hjoin ihright
  | tighter htighter h ih => exact reads_tighter htighter ih h.links_le.2
  | tightest htightest _ ih => exact reads_tightest htightest ih
  | not _ ih => exact reads_not ih
  | minus _ ih => exact reads_minus ih
  | member h ih => exact reads_member ih h.links_le.2 h.starts
  | simple _ ih => exact reads_simple ih
  | select h ih => exact reads_select ih h.links_le
  | method h _ ih ihargs => exact reads_method ih h.links_le ihargs
  | index h _ ih ihposition => exact reads_index ih h.links_le ihposition
  | null => exact reads_null
  | bool => exact reads_bool
  | int => exact reads_int
  | float => exact reads_float
  | string => exact reads_string
  | ident => exact reads_ident
  | call _ ih => exact reads_call ih
  | paren _ ih => exact reads_paren ih
  | list _ ih => exact reads_list ih
  | map _ ih => exact reads_map ih
  | noItems => exact reads_noItems
  | lastItem h ih => exact reads_lastItem h.starts ih
  | moreItems h _ ih ihrest => exact reads_moreItems h.starts ih ihrest
  | noEntries => exact reads_noEntries
  | lastEntry h _ ih ihvalue => exact reads_lastEntry h.starts ih ihvalue
  | moreEntries h _ _ ih ihvalue ihrest => exact reads_moreEntries h.starts ih ihvalue ihrest

/-- **A sequence of tokens that stands for an expression is read as this expression**, if
its nesting is within the limit, and is refused as too deep otherwise. -/
theorem ofTokensWith_of_derives {lexemes : List Lexeme} {n : Nat} {e : Expression}
    (h : Derives negate .expression n (lexemes.map Lexeme.token) e) :
    ofTokensWith negate lexemes = if n ≤ maxDepth then .ok e else .error .tooDeep := by
  have hread := reads_of_derives h lexemes [] 0 (stepsFor lexemes.length)
    ⟨rfl, nofun, Nat.zero_le _, by
      simp only [cost, stepsFor, List.length_nil]; omega⟩
  dsimp only at hread
  rw [List.append_nil] at hread
  rw [ofTokensWith, hread]
  by_cases hfits : n ≤ maxDepth
  · rw [if_pos hfits, answer_of_le (by omega)]
    rfl
  · rw [if_neg hfits, answer_of_not_le (by omega)]
    rfl

end Expression
end Placement
