import Placement.Attempt
import Placement.Proofs.Expression.Grammar
import Placement.Proofs.Expression.Readers
/-! # The readers keep their balance

A reader counts levels as it goes down, and has to count them back: a chain or a list that
left the cursor too deep would spend the limit on what stands **behind** it.  What each reader
does to the cursor is `Reader.Moves`.  From it follows here that the readers end and that they
stay within the limit (`readers_balanced`).

Both are properties of all that happens on the way, which a result does not show.  So the
readers are run once more in a monad that does (`watched`), and `Watches` says what a relation
between the two runs has to satisfy, so that one step of any reader keeps it
(`watches_asking`).  That the number of steps does not matter is the same argument, for the
relation of equality.

An argument about steps has to say why they suffice.  Between two tokens a reader can only ask
a tighter one, which takes fewer steps (`cost`); past a token there are steps for any reader
again (`Fits.past`).
-/
namespace Placement
namespace Reader
variable {negate : Expression → Expression}

/-! ## Steps and levels -/

/-- The steps that a reader takes before it passes a token, at most.  A reader that asks another
one at the same token costs more than that one: the levels count down from the loosest to the
tightest, and `unary`, `member` and `primary` follow. -/
def cost : Reader → Nat
  | .expression => 14
  | .chain level => 17 - 2 * level.rank
  | .operand level => 16 - 2 * level.rank
  | .links _ _ => 1
  | .unary => 3
  | .member => 2
  | .steps _ => 1
  | .items _ => 15
  | .entries => 15
  | .primary => 1

theorem cost_bounds (r : Reader) : 1 ≤ r.cost ∧ r.cost ≤ 15 := by
  cases r with
  | chain level => cases level <;> decide
  | operand level => cases level <;> decide
  | _ => simp only [cost]; omega

/-- A reader is called at a cursor within the limit, with enough steps for the tokens there. -/
structure Fits (steps : Nat) (r : Reader) (c : Cursor) : Prop where
  depth_le : c.depth ≤ maxDepth
  cost_le : 20 * c.rest.length + r.cost ≤ steps

theorem not_fits_zero {r : Reader} {c : Cursor} : ¬ Fits 0 r c := by
  intro h
  have hcost := h.cost_le
  have hr := r.cost_bounds
  omega

/-- Once a token is taken, there are steps for any reader. -/
theorem Fits.past {steps : Nat} {r : Reader} {c d : Cursor} (h : Fits (steps + 1) r c)
    (hbefore : c.Before d) (hdepth : d.depth ≤ maxDepth) (r' : Reader) : Fits steps r' d := by
  have hcost := h.cost_le
  have hlength := hbefore.length_lt
  have hr := r.cost_bounds
  have hr' := r'.cost_bounds
  exact ⟨hdepth, by omega⟩

/-- Without taking a token, only a cheaper reader can be called. -/
theorem Fits.here {steps : Nat} {r r' : Reader} {c d : Cursor} (h : Fits (steps + 1) r c)
    (hrest : d.rest = c.rest) (hdepth : d.depth ≤ maxDepth) (hcost : r'.cost < r.cost) :
    Fits steps r' d := by
  have hcost' := h.cost_le
  exact ⟨hdepth, by rw [hrest]; omega⟩

/-- **A relation between a run and its plain result** that holds where nothing is called, and of
one run after another: of the second only if the plain result of the first is a value. -/
structure Watches {m : Type → Type} [Monad m] [MonadLiftT (Except Fault) m]
    (Rel : ∀ {α : Type}, m α → Except Fault α → Prop) : Prop where
  lift : ∀ {α : Type} (y : Except Fault α), Rel (liftM y : m α) y
  pure : ∀ {α : Type} (x : α), Rel (pure x : m α) (.ok x)
  bind : ∀ {α β : Type} {x : m α} {y : Except Fault α} {f : α → m β} {g : α → Except Fault β},
    Rel x y → (∀ a, y = .ok a → Rel (f a) (g a)) → Rel (x >>= f) (y >>= g)

section
variable {m : Type → Type} [Monad m] [MonadLiftT (Except Fault) m]
  {Rel : ∀ {α : Type}, m α → Except Fault α → Prop} (hrel : Watches Rel)
  {call : (r : Reader) → Cursor → m (r.Result × Cursor)}
  {plain : (r : Reader) → Cursor → Except Fault (r.Result × Cursor)} {steps : Nat}
  (hmoves : ∀ {r : Reader} {c : Cursor} {x : r.Result} {d : Cursor},
    plain r c = .ok (x, d) → r.Moves c d)
  (hcall : ∀ {r : Reader} {c : Cursor}, Fits steps r c → Rel (call r c) (plain r c))
  {c : Cursor}
include hrel hmoves hcall

theorem watches_expression (h : Fits (steps + 1) .expression c) :
    Rel (asking negate call .expression c) (asking negate plain .expression c) := by
  refine hrel.bind (hrel.lift _) fun c₁ hdeeper => ?_
  obtain ⟨hrest₁, -, hmax₁⟩ := Cursor.rest_of_deeper hdeeper
  refine hrel.bind (hcall (h.here hrest₁ hmax₁ (by decide))) ?_
  rintro ⟨condition, c₂⟩ hcondition
  obtain ⟨hbefore₂, hdepth₂⟩ := hmoves hcondition
  dsimp only
  split
  · exact hrel.pure _
  · rename_i c₃ hquestion
    obtain ⟨hbefore₃, hdepth₃⟩ := Cursor.before_of_accept? hquestion
    have hpast₃ := (hbefore₂.of_rest hrest₁).trans hbefore₃
    refine hrel.bind (hcall (h.past hpast₃ (by omega) _)) ?_
    rintro ⟨yes, c₄⟩ hyes
    obtain ⟨hbefore₄, hdepth₄⟩ := hmoves hyes
    refine hrel.bind (hrel.lift _) fun c₅ hcolon => ?_
    obtain ⟨hbefore₅, hdepth₅⟩ := Cursor.before_of_require hcolon
    dsimp only at hdepth₅
    have hpast₅ := hpast₃.trans (hbefore₄.trans hbefore₅)
    exact hrel.bind (hcall (h.past hpast₅ (by omega) _)) fun _ _ => hrel.pure _

theorem watches_chain {level : Level} (h : Fits (steps + 1) (.chain level) c) :
    Rel (asking negate call (.chain level) c) (asking negate plain (.chain level) c) := by
  have hcheaper : (operand level).cost < (chain level).cost := by cases level <;> decide
  refine hrel.bind (hcall (h.here rfl h.depth_le hcheaper)) ?_
  rintro ⟨first, c₁⟩ hfirst
  obtain ⟨hbefore₁, hdepth₁⟩ := hmoves hfirst
  refine hrel.bind (hcall (h.past hbefore₁ ?_ _)) fun _ _ => hrel.pure _
  exact Nat.le_trans (Nat.le_of_eq hdepth₁) h.depth_le

omit hrel hmoves in
theorem watches_operand {level : Level} (h : Fits (steps + 1) (.operand level) c) :
    Rel (asking negate call (.operand level) c) (asking negate plain (.operand level) c) := by
  rw [asking, asking]
  split
  · rename_i tighter htighter
    have hrank := Level.rank_tighter htighter
    have hle : tighter.rank ≤ 6 := by cases tighter <;> decide
    exact hcall (h.here rfl h.depth_le (by simp only [cost]; omega))
  · rename_i htightest
    have hrank := Level.rank_tightest htightest
    exact hcall (h.here rfl h.depth_le (by simp only [cost]; omega))

theorem watches_links {level : Level} {left : Expression}
    (h : Fits (steps + 1) (.links level left) c) :
    Rel (asking negate call (.links level left) c) (asking negate plain (.links level left) c) := by
  rw [asking, asking]
  split
  · exact hrel.pure _
  · rename_i join hjoin
    obtain ⟨t, hcurrent, -⟩ := Option.bind_eq_some_iff.mp hjoin
    refine hrel.bind (hrel.lift _) fun c₁ hdeeper => ?_
    obtain ⟨hpast₁, hmax₁⟩ := Cursor.before_of_deeper hcurrent hdeeper
    refine hrel.bind (hcall (h.past hpast₁ hmax₁ _)) ?_
    rintro ⟨right, c₂⟩ hright
    obtain ⟨hbefore₂, hdepth₂⟩ := hmoves hright
    -- The loop goes on one level down, which `deeper` has found to be within the limit.
    exact hcall (h.past (hpast₁.trans hbefore₂) (by omega) _)

omit hmoves in
/-- An operator in front, with its operand. -/
theorem watches_sign {t : Token} {build : Expression → Expression}
    (h : Fits (steps + 1) .unary c) (hcurrent : c.current? = some t) :
    Rel ((liftM c.advance.deeper : m Cursor) >>= fun c => call .unary c >>= fun p =>
        pure (build p.1, p.2.higher))
      (c.advance.deeper >>= fun c => plain .unary c >>= fun p => .ok (build p.1, p.2.higher)) := by
  refine hrel.bind (hrel.lift _) fun c₁ hdeeper => ?_
  obtain ⟨hpast₁, hmax₁⟩ := Cursor.before_of_deeper hcurrent hdeeper
  exact hrel.bind (hcall (h.past hpast₁ hmax₁ _)) fun _ _ => hrel.pure _

omit hmoves in
theorem watches_unary (h : Fits (steps + 1) .unary c) :
    Rel (asking negate call .unary c) (asking negate plain .unary c) := by
  rw [asking, asking]
  split
  · exact watches_sign hrel hcall h ‹_›
  · exact watches_sign hrel hcall h ‹_›
  · exact hcall (h.here rfl h.depth_le (by decide))

theorem watches_member (h : Fits (steps + 1) .member c) :
    Rel (asking negate call .member c) (asking negate plain .member c) := by
  refine hrel.bind (hcall (h.here rfl h.depth_le (by decide))) ?_
  rintro ⟨target, c₁⟩ htarget
  obtain ⟨hbefore₁, hdepth₁⟩ := hmoves htarget
  refine hrel.bind (hcall (h.past hbefore₁ ?_ _)) fun _ _ => hrel.pure _
  exact Nat.le_trans (Nat.le_of_eq hdepth₁) h.depth_le

theorem watches_steps {target : Expression} (h : Fits (steps + 1) (.steps target) c) :
    Rel (asking negate call (.steps target) c) (asking negate plain (.steps target) c) := by
  rw [asking, asking]
  split
  · refine hrel.bind (hrel.lift _) fun c₁ hdeeper => ?_
    obtain ⟨hpast₁, hmax₁⟩ := Cursor.before_of_deeper ‹_› hdeeper
    refine hrel.bind (hrel.lift _) ?_
    rintro ⟨name, c₂⟩ hname
    obtain ⟨hbefore₂, hdepth₂⟩ := Cursor.before_of_name hname
    have hpast₂ := hpast₁.trans hbefore₂
    dsimp only
    split
    · exact hcall (h.past hpast₂ (by omega) _)
    · rename_i c₃ hopen
      obtain ⟨hbefore₃, hdepth₃⟩ := Cursor.before_of_accept? hopen
      have hpast₃ := hpast₂.trans hbefore₃
      refine hrel.bind (hcall (h.past hpast₃ (by omega) _)) ?_
      rintro ⟨args, c₄⟩ hargs
      obtain ⟨hbefore₄, hdepth₄⟩ := hmoves hargs
      exact hcall (h.past (hpast₃.trans hbefore₄) (by omega) _)
  · refine hrel.bind (hrel.lift _) fun c₁ hdeeper => ?_
    obtain ⟨hpast₁, hmax₁⟩ := Cursor.before_of_deeper ‹_› hdeeper
    refine hrel.bind (hcall (h.past hpast₁ hmax₁ _)) ?_
    rintro ⟨position, c₂⟩ hposition
    obtain ⟨hbefore₂, hdepth₂⟩ := hmoves hposition
    refine hrel.bind (hrel.lift _) fun c₃ hclose => ?_
    obtain ⟨hbefore₃, hdepth₃⟩ := Cursor.before_of_require hclose
    have hpast₃ := hpast₁.trans (hbefore₂.trans hbefore₃)
    exact hcall (h.past hpast₃ (by omega) _)
  · exact hrel.pure _

theorem watches_items {close : Token} (h : Fits (steps + 1) (.items close) c) :
    Rel (asking negate call (.items close) c) (asking negate plain (.items close) c) := by
  have hdepth := h.depth_le
  have hcheaper : expression.cost < (items close).cost := by simp only [cost]; omega
  rw [asking, asking]
  split
  · exact hrel.pure _
  · refine hrel.bind (hcall (h.here rfl hdepth hcheaper)) ?_
    rintro ⟨item, c₁⟩ hitem
    obtain ⟨hbefore₁, hdepth₁⟩ := hmoves hitem
    dsimp only
    split
    · rename_i c₂ hcomma
      obtain ⟨hbefore₂, hdepth₂⟩ := Cursor.before_of_accept? hcomma
      exact hrel.bind (hcall (h.past (hbefore₁.trans hbefore₂) (by omega) _))
        fun _ _ => hrel.pure _
    · exact hrel.bind (hrel.lift _) fun _ _ => hrel.pure _

theorem watches_entries (h : Fits (steps + 1) .entries c) :
    Rel (asking negate call .entries c) (asking negate plain .entries c) := by
  have hdepth := h.depth_le
  rw [asking, asking]
  split
  · exact hrel.pure _
  · refine hrel.bind (hcall (h.here rfl hdepth (by decide))) ?_
    rintro ⟨key, c₁⟩ hkey
    obtain ⟨hbefore₁, hdepth₁⟩ := hmoves hkey
    refine hrel.bind (hrel.lift _) fun c₂ hcolon => ?_
    obtain ⟨hbefore₂, hdepth₂⟩ := Cursor.before_of_require hcolon
    have hpast₂ := hbefore₁.trans hbefore₂
    refine hrel.bind (hcall (h.past hpast₂ (by omega) _)) ?_
    rintro ⟨value, c₃⟩ hvalue
    obtain ⟨hbefore₃, hdepth₃⟩ := hmoves hvalue
    dsimp only
    split
    · rename_i c₄ hcomma
      obtain ⟨hbefore₄, hdepth₄⟩ := Cursor.before_of_accept? hcomma
      have hpast₄ := hpast₂.trans (hbefore₃.trans hbefore₄)
      exact hrel.bind (hcall (h.past hpast₄ (by omega) _)) fun _ _ => hrel.pure _
    · exact hrel.bind (hrel.lift _) fun _ _ => hrel.pure _

omit hmoves in
theorem watches_primary (h : Fits (steps + 1) .primary c) :
    Rel (asking negate call .primary c) (asking negate plain .primary c) := by
  have hdepth := h.depth_le
  refine hrel.bind (hrel.lift _) ?_
  rintro ⟨⟨token, start, stop⟩, c₁⟩ hnext
  obtain ⟨hbefore₁, hdepth₁⟩ := Cursor.before_of_next hnext
  have hmax₁ : c₁.depth ≤ maxDepth := by omega
  cases token with
  | null | bool _ | int _ | float _ | string _ => exact hrel.pure _
  | identifier name =>
      dsimp only
      split
      · exact hrel.pure _
      · rename_i c₂ hopen
        obtain ⟨hbefore₂, hdepth₂⟩ := Cursor.before_of_accept? hopen
        exact hrel.bind (hcall (h.past (hbefore₁.trans hbefore₂) (by omega) _))
          fun _ _ => hrel.pure _
  | openParen =>
      exact hrel.bind (hcall (h.past hbefore₁ hmax₁ _)) fun _ _ =>
        hrel.bind (hrel.lift _) fun _ _ => hrel.pure _
  | openBracket => exact hrel.bind (hcall (h.past hbefore₁ hmax₁ _)) fun _ _ => hrel.pure _
  | openBrace => exact hrel.bind (hcall (h.past hbefore₁ hmax₁ _)) fun _ _ => hrel.pure _
  | _ => exact hrel.lift _

/-- One step of any reader keeps the relation that its calls keep. -/
theorem watches_asking {r : Reader} (h : Fits (steps + 1) r c) :
    Rel (asking negate call r c) (asking negate plain r c) := by
  cases r with
  | expression => exact watches_expression hrel hmoves hcall h
  | chain level => exact watches_chain hrel hmoves hcall h
  | operand level => exact watches_operand hcall h
  | links level left => exact watches_links hrel hmoves hcall h
  | unary => exact watches_unary hrel hcall h
  | member => exact watches_member hrel hmoves hcall h
  | steps target => exact watches_steps hrel hmoves hcall h
  | items close => exact watches_items hrel hmoves hcall h
  | entries => exact watches_entries hrel hmoves hcall h
  | primary => exact watches_primary hrel hcall h

end

/-! ## Steps enough -/

theorem watches_eq : Watches (m := Except Fault) fun x y => y = x := by
  refine ⟨fun _ => rfl, fun _ => rfl, fun {α β x y f g} hxy hfg => ?_⟩
  subst hxy
  cases y with
  | error fault => rfl
  | ok a => exact hfg a rfl

/-- With steps enough, more of them change nothing. -/
theorem read_eq_of_le {steps steps' : Nat} {r : Reader} {c : Cursor} (h : Fits steps r c)
    (hle : steps ≤ steps') : r.read negate steps' c = r.read negate steps c := by
  induction steps generalizing steps' c r with
  | zero => exact absurd h not_fits_zero
  | succ steps ih =>
      obtain ⟨more, rfl⟩ := Nat.exists_eq_add_of_le hle
      rw [Nat.add_right_comm, read_succ, read_succ]
      exact watches_asking watches_eq moves_of_read (fun h => ih h (Nat.le_add_right _ _)) h

/-- **What a reader makes of the tokens at a cursor**, however many there are. -/
def complete (negate : Expression → Expression) (r : Reader) (c : Cursor) :
    Except Fault (r.Result × Cursor) :=
  r.read negate (Expression.stepsFor c.rest.length) c

theorem moves_of_complete {r : Reader} {c d : Cursor} {x : r.Result}
    (h : r.complete negate c = .ok (x, d)) : r.Moves c d :=
  moves_of_read h

theorem fits_stepsFor {c : Cursor} (hdepth : c.depth ≤ maxDepth) (r : Reader) :
    Fits (Expression.stepsFor c.rest.length) r c := by
  have hr := r.cost_bounds
  exact ⟨hdepth, by unfold Expression.stepsFor; omega⟩

theorem complete_eq_read {steps : Nat} {r : Reader} {c : Cursor} (h : Fits steps r c) :
    r.complete negate c = r.read negate steps c := by
  have hfits := fits_stepsFor h.depth_le r
  rcases Nat.le_total steps (Expression.stepsFor c.rest.length) with hle | hle
  · exact read_eq_of_le h hle
  · exact (read_eq_of_le hfits hle).symm

/-- What the readers make of tokens goes by their own rules, with no steps to count. -/
theorem complete_eq_asking {r : Reader} {c : Cursor} (hdepth : c.depth ≤ maxDepth) :
    r.complete negate c = asking negate (complete negate) r c := by
  have hfits := fits_stepsFor hdepth r
  obtain ⟨steps, hsteps⟩ : ∃ steps, Expression.stepsFor c.rest.length = steps + 1 :=
    ⟨20 * c.rest.length + 19, rfl⟩
  rw [hsteps] at hfits
  rw [complete, hsteps, read_succ]
  exact watches_asking watches_eq moves_of_read (fun h => (complete_eq_read h).symm) hfits

/-! ## Readers under watch -/

/-- A reading of which the greatest depth is kept.  Its fault is `none` if the steps ran out. -/
abbrev Watched (α : Type) : Type := Attempt Nat (Option Fault) α

instance : MonadLift (Except Fault) Watched := ⟨fun x => Attempt.ofResult (x.mapError some)⟩

/-- The same readings as `read`, keeping **the greatest depth of any call on the way**, and with
a fault of their own when the steps run out. -/
def watched (negate : Expression → Expression) : Nat → (r : Reader) → Cursor →
    Watched (r.Result × Cursor)
  | 0, _, _ => throw none
  | n + 1, r, c => do
      modify (max c.depth)
      asking negate (watched negate n) r c

/-- A watched reading comes out as the plain one, and stays within the limit. -/
def Within {α : Type} (run : Watched α) (result : Except Fault α) : Prop :=
  ∀ greatest ≤ maxDepth, ∃ after ≤ maxDepth,
    run.outcome greatest = (result.mapError some, after)

theorem watches_within : Watches (m := Watched) Within := by
  refine ⟨fun y greatest h => ⟨greatest, h, rfl⟩, fun x greatest h => ⟨greatest, h, rfl⟩, ?_⟩
  intro α β x y f g hxy hfg greatest h
  obtain ⟨after, hafter, hrun⟩ := hxy greatest h
  cases y with
  | error fault => exact ⟨after, hafter, Attempt.outcome_bind_error hrun⟩
  | ok a =>
      obtain ⟨after', hafter', hrun'⟩ := hfg a rfl after hafter
      exact ⟨after', hafter', (Attempt.outcome_bind_ok hrun).trans hrun'⟩

/-- **With steps enough they never run out**, and no call goes below the limit. -/
theorem within_watched {steps : Nat} {r : Reader} {c : Cursor} (h : Fits steps r c) :
    Within (watched negate steps r c) (r.read negate steps c) := by
  induction steps generalizing c r with
  | zero => exact absurd h not_fits_zero
  | succ steps ih =>
      intro greatest hgreatest
      rw [read_succ]
      exact watches_asking watches_within moves_of_read ih h (max c.depth greatest)
        (Nat.max_le.mpr ⟨h.depth_le, hgreatest⟩)

/-! ## Siblings -/

/-- A key and its value. -/
def readPair (negate : Expression → Expression) (c : Cursor) :
    Except Fault ((Expression × Expression) × Cursor) := do
  let (key, c) ← expression.complete negate c
  let c ← c.require .colon
  let (value, c) ← expression.complete negate c
  .ok ((key, value), c)

/-- **Elements with a comma behind each**, read one after another from one cursor to another. -/
inductive Siblings {α : Type} (element : Cursor → Except Fault (α × Cursor)) (close : Token) :
    Cursor → List α → Cursor → Prop
  | none (c : Cursor) : Siblings element close c [] c
  | more {c c' c'' d : Cursor} {x : α} {xs : List α} :
      c.accept? close = none → element c = .ok (x, c') → c'.accept? .comma = some c'' →
      Siblings element close c'' xs d → Siblings element close c (x :: xs) d

section
variable {c c' c'' d : Cursor}

theorem depth_of_item {x : Expression} (h : expression.complete negate c = .ok (x, d)) :
    d.depth = c.depth :=
  ((moves_of_complete h).balanced id).1

theorem depth_of_readPair {pair : Expression × Expression}
    (h : readPair negate c = .ok (pair, d)) : d.depth = c.depth := by
  obtain ⟨⟨key, c₁⟩, hkey, h⟩ := exists_of_bind_eq_ok h
  have hdepth₁ := depth_of_item hkey
  obtain ⟨c₂, hcolon, h⟩ := exists_of_bind_eq_ok h
  obtain ⟨-, hdepth₂⟩ := Cursor.before_of_require hcolon
  obtain ⟨⟨value, c₃⟩, hvalue, h⟩ := exists_of_bind_eq_ok h
  have hdepth₃ := depth_of_item hvalue
  cases h
  exact hdepth₃.trans (hdepth₂.trans hdepth₁)

/-- The loop over items goes on behind a comma as it would start there. -/
theorem complete_items_comma {close : Token} {x : Expression} (hdepth : c.depth ≤ maxDepth)
    (hclose : c.accept? close = none) (hitem : expression.complete negate c = .ok (x, c'))
    (hcomma : c'.accept? .comma = some c'') :
    (items close).complete negate c =
      ((items close).complete negate c'').map fun p => (x :: p.1, p.2) := by
  rw [complete_eq_asking hdepth]
  simp only [asking, hclose, hitem, bind, Except.bind, hcomma]
  cases (items close).complete negate c'' <;> rfl

/-- The loop over entries goes on behind a comma as it would start there. -/
theorem complete_entries_comma {pair : Expression × Expression} (hdepth : c.depth ≤ maxDepth)
    (hclose : c.accept? .closeBrace = none) (hpair : readPair negate c = .ok (pair, c'))
    (hcomma : c'.accept? .comma = some c'') :
    entries.complete negate c = (entries.complete negate c'').map fun p => (pair :: p.1, p.2) := by
  obtain ⟨⟨key, c₁⟩, hkey, hpair⟩ := exists_of_bind_eq_ok hpair
  obtain ⟨c₂, hcolon, hpair⟩ := exists_of_bind_eq_ok hpair
  obtain ⟨⟨value, c₃⟩, hvalue, hpair⟩ := exists_of_bind_eq_ok hpair
  cases hpair
  rw [complete_eq_asking hdepth]
  simp only [asking, hclose, hkey, liftM, monadLift, hcolon, hvalue, bind, Except.bind, hcomma]
  cases entries.complete negate c'' <;> rfl

end

/-- **Behind its siblings a loop does what it does at the start of a loop**, and has the level of
that start. -/
theorem Siblings.resume {α : Type} {element : Cursor → Except Fault (α × Cursor)} {close : Token}
    {loop : Cursor → Except Fault (List α × Cursor)} {c d : Cursor} {xs : List α}
    (helement : ∀ {c x c'}, element c = .ok (x, c') → c'.depth = c.depth)
    (hloop : ∀ {c x c' c''}, c.depth ≤ maxDepth → c.accept? close = .none →
      element c = .ok (x, c') → c'.accept? .comma = some c'' →
      loop c = (loop c'').map fun p => (x :: p.1, p.2))
    (h : Siblings element close c xs d) (hdepth : c.depth ≤ maxDepth) :
    d.depth = c.depth ∧ loop c = (loop ⟨d.rest, c.depth⟩).map fun p => (xs ++ p.1, p.2) := by
  induction h with
  | none c =>
      refine ⟨rfl, ?_⟩
      cases loop c <;> rfl
  | @more c c' c'' d x xs hclose hx hcomma _ ih =>
      -- The comma leaves the cursor on the level of the loop, so the rest starts there as well.
      have hlevel : c''.depth = c.depth :=
        (Cursor.before_of_accept? hcomma).2.trans (helement hx)
      rw [hlevel] at ih
      obtain ⟨hd, hrest⟩ := ih hdepth
      refine ⟨hd, ?_⟩
      rw [hloop hdepth hclose hx hcomma, hrest]
      cases loop ⟨d.rest, c.depth⟩ <;> rfl

/-! ## The balance -/

/-- **The readers keep their balance**, from any tokens and any level within the limit.

* A reader that returns is back on the level where it started, and has taken a token.
* With `stepsFor` the tokens or more, the steps never run out and their number does not matter;
  the greatest depth of any call on the way is within the limit.
* Behind any siblings, items and entries are read as if they came first: on the level where the
  loop started, with the same result. -/
theorem readers_balanced (negate : Expression → Expression) {c : Cursor}
    (hdepth : c.depth ≤ maxDepth) :
    (∀ r : Reader,
      (∀ (x : r.Result) (d : Cursor), ¬ r.Resumes → r.complete negate c = .ok (x, d) →
        d.depth = c.depth ∧ ∃ taken, taken ≠ [] ∧ c.rest = taken ++ d.rest) ∧
      ∀ steps, Expression.stepsFor c.rest.length ≤ steps →
        r.read negate steps c = r.complete negate c ∧
        ∃ greatest ≤ maxDepth, (watched negate steps r c).outcome c.depth =
          ((r.complete negate c).mapError some, greatest)) ∧
    (∀ close xs d, Siblings (expression.complete negate) close c xs d → d.depth = c.depth ∧
      (items close).complete negate c =
        ((items close).complete negate ⟨d.rest, c.depth⟩).map fun p => (xs ++ p.1, p.2)) ∧
    ∀ pairs d, Siblings (readPair negate) .closeBrace c pairs d → d.depth = c.depth ∧
      entries.complete negate c =
        (entries.complete negate ⟨d.rest, c.depth⟩).map fun p => (pairs ++ p.1, p.2) := by
  refine ⟨fun r => ⟨?balance, ?steps⟩, ?items, ?entries⟩
  case balance => exact fun x d hr h => (moves_of_complete h).balanced hr
  case steps =>
    intro steps hsteps
    have hfits := fits_stepsFor hdepth r
    have hread : r.read negate steps c = r.complete negate c := read_eq_of_le hfits hsteps
    refine ⟨hread, ?_⟩
    have hfits' : Fits steps r c := ⟨hdepth, Nat.le_trans hfits.cost_le hsteps⟩
    have hwithin : Within (watched negate steps r c) (r.complete negate c) :=
      hread ▸ within_watched hfits'
    exact hwithin c.depth hdepth
  case items =>
    intro close xs d h
    exact h.resume depth_of_item complete_items_comma hdepth
  case entries =>
    intro pairs d h
    exact h.resume depth_of_readPair complete_entries_comma hdepth

/-- In `1, 2]` one level above the limit, `2` is read as it would be in `2]`. -/
theorem readers_balanced_list :
    ∃ c d : Cursor,
      c = ⟨[⟨.int 1, 0, 1⟩, ⟨.comma, 1, 2⟩, ⟨.int 2, 3, 4⟩, ⟨.closeBracket, 4, 5⟩], 99⟩ ∧
      c.depth + 1 = maxDepth ∧
      (items .closeBracket).complete Expression.negated c =
        .ok ([.literal (.int 1), .literal (.int 2)], d) ∧
      d.depth = c.depth ∧ (∃ taken, taken ≠ [] ∧ c.rest = taken ++ d.rest) ∧
      (items .closeBracket).complete Expression.negated c =
        ((items .closeBracket).complete Expression.negated
          ⟨[⟨.int 2, 3, 4⟩, ⟨.closeBracket, 4, 5⟩], c.depth⟩).map
            fun p => (.literal (.int 1) :: p.1, p.2) := by
  let c : Cursor :=
    ⟨[⟨.int 1, 0, 1⟩, ⟨.comma, 1, 2⟩, ⟨.int 2, 3, 4⟩, ⟨.closeBracket, 4, 5⟩], 99⟩
  let d : Cursor := ⟨[⟨.int 2, 3, 4⟩, ⟨.closeBracket, 4, 5⟩], 99⟩
  have hread : (items .closeBracket).complete Expression.negated c =
      .ok ([.literal (.int 1), .literal (.int 2)], ⟨[], 99⟩) := rfl
  have hfirst : Siblings (expression.complete Expression.negated) .closeBracket c
      [.literal (.int 1)] d :=
    .more rfl rfl rfl (.none d)
  have hdepth : c.depth ≤ maxDepth := by decide
  obtain ⟨hreaders, hitems, -⟩ := readers_balanced Expression.negated hdepth
  obtain ⟨hback, htaken⟩ := (hreaders _).1 _ _ id hread
  exact ⟨c, _, rfl, rfl, hread, hback, htaken, (hitems _ _ _ hfirst).2⟩

end Reader
end Placement
