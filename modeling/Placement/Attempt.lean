/-! # Steps that may fail

Work on stored state goes in steps, each of which may fail.  **What a step changed
before it failed stays changed**: an `Attempt` is a function from a state to a
result, which is a value or a fault, together with the next state.

Collaborators (a store, a history) fail when they like, and what they do is fixed
in advance by a `Tape`, which holds an entry for every time that something is
asked of it.
-/
namespace Placement

/-- An unending sequence that is read from the front. -/
structure Tape (α : Type) where
  /-- The entry at a distance from the front. -/
  entry : Nat → α

namespace Tape
variable {α : Type}

/-- The entry at the front. -/
def head (tape : Tape α) : α := tape.entry 0

/-- What follows the entry at the front. -/
def tail (tape : Tape α) : Tape α := ⟨fun n => tape.entry (n + 1)⟩

/-- What is left once so many entries are read. -/
def drop (n : Nat) (tape : Tape α) : Tape α := ⟨fun i => tape.entry (i + n)⟩

/-- One entry for ever. -/
def const (x : α) : Tape α := ⟨fun _ => x⟩

@[simp] theorem head_const (x : α) : (const x).head = x := rfl

@[simp] theorem tail_const (x : α) : (const x).tail = const x := rfl

theorem drop_drop (m n : Nat) (tape : Tape α) : (tape.drop m).drop n = tape.drop (m + n) :=
  congrArg mk (funext fun i => congrArg tape.entry (by rw [Nat.add_comm m, Nat.add_assoc]))

theorem head_drop (n : Nat) (tape : Tape α) : (tape.drop n).head = tape.entry n :=
  congrArg tape.entry (Nat.zero_add n)

end Tape

/-- What the coming accesses to a collaborator meet: nothing, or a failure with its
reason. -/
abbrev Faults (Access : Type) : Type := Tape (Access → Option String)

/-- No access fails. -/
def Faults.none {Access : Type} : Faults Access := Tape.const fun _ => Option.none

/-- A step on a state that yields a value or fails. -/
abbrev Attempt (σ ε α : Type) : Type := ExceptT ε (StateM σ) α

namespace Attempt
variable {σ τ ε δ α : Type}

/-- The same step on a part of a larger state. -/
def on (get : σ → τ) (set : τ → σ → σ) (step : Attempt τ ε α) : Attempt σ ε α := fun s =>
  match step (get s) with
  | (result, t) => (result, set t s)

/-- The same step with its fault as a value, so that work goes on after it. -/
def caught (step : Attempt σ ε α) : Attempt σ δ (Except ε α) := fun s =>
  match step s with
  | (result, s) => (.ok result, s)

/-- The same step with other faults. -/
def mapFault (f : ε → δ) (step : Attempt σ ε α) : Attempt σ δ α := fun s =>
  match step s with
  | (.ok x, s) => (.ok x, s)
  | (.error fault, s) => (.error (f fault), s)

/-- A result as a step that changes nothing. -/
def ofResult (result : Except ε α) : Attempt σ ε α := fun s => (result, s)

/-! ## What comes of a step -/

/-- A result of which one thing holds if it is a value, and another if it is a fault. -/
def Ends (result : Except ε α) (done : α → Prop) (failed : Prop) : Prop :=
  match result with
  | .ok x => done x
  | .error _ => failed

theorem Ends.elim {result : Except ε α} {done : α → Prop} {failed p : Prop}
    (h : Ends result done failed) (hdone : ∀ x, result = .ok x → done x → p)
    (hfailed : ∀ fault, result = .error fault → failed → p) : p := by
  cases result with
  | ok x => exact hdone x rfl h
  | error fault => exact hfailed fault rfl h

/-- **What comes of a step** in a state: its result, and the state it leaves. -/
def outcome (step : Attempt σ ε α) (s : σ) : Except ε α × σ := step s

theorem outcome_eq_of_result {step : Attempt σ ε α} {s : σ} {result : Except ε α}
    (h : (step.outcome s).1 = result) : step.outcome s = (result, (step.outcome s).2) :=
  Prod.ext h rfl

section
variable {β : Type}

@[simp] theorem outcome_pure (x : α) (s : σ) :
    (pure x : Attempt σ ε α).outcome s = (.ok x, s) := rfl

@[simp] theorem outcome_throw (fault : ε) (s : σ) :
    (throw fault : Attempt σ ε α).outcome s = (.error fault, s) := rfl

@[simp] theorem outcome_get (s : σ) : (get : Attempt σ ε σ).outcome s = (.ok s, s) := rfl

@[simp] theorem outcome_set (s t : σ) :
    (set t : Attempt σ ε PUnit).outcome s = (.ok ⟨⟩, t) := rfl

@[simp] theorem outcome_modify (f : σ → σ) (s : σ) :
    (modify f : Attempt σ ε PUnit).outcome s = (.ok ⟨⟩, f s) := rfl

@[simp] theorem outcome_ofResult (result : Except ε α) (s : σ) :
    (ofResult result : Attempt σ ε α).outcome s = (result, s) := rfl

@[simp] theorem outcome_caught (step : Attempt σ ε α) (s : σ) :
    (step.caught : Attempt σ δ (Except ε α)).outcome s =
      (.ok (step.outcome s).1, (step.outcome s).2) := rfl

theorem outcome_caught_eq {step : Attempt σ ε α} {s t : σ} {r : Except ε α}
    (h : step.outcome s = (r, t)) :
    (step.caught : Attempt σ δ (Except ε α)).outcome s = (.ok r, t) := by
  rw [outcome_caught, h]

@[simp] theorem outcome_mapFault (f : ε → δ) (step : Attempt σ ε α) (s : σ) :
    (step.mapFault f).outcome s = ((step.outcome s).1.mapError f, (step.outcome s).2) := by
  unfold outcome mapFault
  rcases step s with ⟨_ | _, t⟩ <;> rfl

theorem outcome_mapFault_ok {f : ε → δ} {step : Attempt σ ε α} {s t : σ} {x : α}
    (h : step.outcome s = (.ok x, t)) : (step.mapFault f).outcome s = (.ok x, t) := by
  rw [outcome_mapFault, h]
  rfl

theorem outcome_mapFault_error {f : ε → δ} {step : Attempt σ ε α} {s t : σ} {fault : ε}
    (h : step.outcome s = (.error fault, t)) :
    (step.mapFault f).outcome s = (.error (f fault), t) := by
  rw [outcome_mapFault, h]
  rfl

@[simp] theorem outcome_on (get : σ → τ) (set : τ → σ → σ) (step : Attempt τ ε α) (s : σ) :
    (step.on get set).outcome s =
      ((step.outcome (get s)).1, set (step.outcome (get s)).2 s) := rfl

/-- The second step starts where the first one ends; a fault of the first one ends both. -/
theorem outcome_bind (step : Attempt σ ε α) (next : α → Attempt σ ε β) (s : σ) :
    (step >>= next : Attempt σ ε β).outcome s =
      match step.outcome s with
      | (.ok x, t) => (next x).outcome t
      | (.error fault, t) => (.error fault, t) := by
  show (ExceptT.bindCont next : Except ε α → StateM σ (Except ε β)) (step s).1 (step s).2 = _
  unfold outcome
  rcases step s with ⟨_ | _, t⟩ <;> rfl

theorem outcome_bind_ok {step : Attempt σ ε α} {next : α → Attempt σ ε β} {s t : σ} {x : α}
    (h : step.outcome s = (.ok x, t)) :
    (step >>= next : Attempt σ ε β).outcome s = (next x).outcome t := by
  rw [outcome_bind, h]

/-- Two steps succeed one after the other if each of them does. -/
theorem outcome_bind_eq_ok {step : Attempt σ ε α} {next : α → Attempt σ ε β} {s u : σ} {y : β}
    (h : (step >>= next : Attempt σ ε β).outcome s = (.ok y, u)) :
    ∃ x t, step.outcome s = (.ok x, t) ∧ (next x).outcome t = (.ok y, u) := by
  rcases hstep : step.outcome s with ⟨fault | x, t⟩
  · rw [outcome_bind, hstep] at h
    cases h
  · rw [outcome_bind, hstep] at h
    exact ⟨x, t, rfl, h⟩

theorem outcome_bind_error {step : Attempt σ ε α} {next : α → Attempt σ ε β} {s t : σ} {fault : ε}
    (h : step.outcome s = (.error fault, t)) :
    (step >>= next : Attempt σ ε β).outcome s = (.error fault, t) := by
  rw [outcome_bind, h]

end

/-- **Whatever comes of it**, the step leads only to states that are related to the one
it began in. -/
def Within (R : σ → σ → Prop) (step : Attempt σ ε α) : Prop := ∀ s, R s (step.outcome s).2

section
variable {β : Type} {R : σ → σ → Prop}

theorem Within.bind {step : Attempt σ ε α} {next : α → Attempt σ ε β}
    (htrans : ∀ {s t u}, R s t → R t u → R s u) (hstep : step.Within R)
    (hnext : ∀ x, (next x).Within R) : (step >>= next : Attempt σ ε β).Within R := by
  intro s
  have hs := hstep s
  rw [outcome_bind]
  rcases h : step.outcome s with ⟨_ | x, t⟩
  · rwa [h] at hs
  · rw [h] at hs
    exact htrans hs (hnext x t)

theorem Within.caught {step : Attempt σ ε α} (h : step.Within R) :
    (step.caught : Attempt σ δ (Except ε α)).Within R := h

end

/-- **The result of the step is fixed** wherever an invariant holds, which the step keeps. -/
def Yields (I : σ → Prop) (step : Attempt σ ε α) (result : Except ε α) : Prop :=
  ∀ s, I s → (step.outcome s).1 = result ∧ I (step.outcome s).2

section
variable {β : Type} {I : σ → Prop}

theorem yields_pure (x : α) : (pure x : Attempt σ ε α).Yields I (pure x) := fun _ hs => ⟨rfl, hs⟩

theorem yields_throw (fault : ε) : (throw fault : Attempt σ ε α).Yields I (.error fault) :=
  fun _ hs => ⟨rfl, hs⟩

theorem Yields.bind {step : Attempt σ ε α} {next : α → Attempt σ ε β} {result : Except ε α}
    {rest : α → Except ε β} (hstep : step.Yields I result)
    (hnext : ∀ x, (next x).Yields I (rest x)) :
    (step >>= next : Attempt σ ε β).Yields I (result >>= rest) := by
  intro s hs
  obtain ⟨hresult, ht⟩ := hstep s hs
  rcases h : step.outcome s with ⟨fault | x, t⟩
  · rw [h] at hresult ht
    rw [outcome_bind_error h, ← hresult]
    exact ⟨rfl, ht⟩
  · rw [h] at hresult ht
    rw [outcome_bind_ok h, ← hresult]
    exact hnext x t ht

end

/-- **The step does not tell related states apart**: in both it has the same result, and it
leaves related states. -/
def BlindTo (R : σ → σ → Prop) (step : Attempt σ ε α) : Prop :=
  ∀ s t, R s t → (step.outcome t).1 = (step.outcome s).1 ∧ R (step.outcome s).2 (step.outcome t).2

section
variable {β : Type} {R : σ → σ → Prop}

theorem blindTo_pure (x : α) : (pure x : Attempt σ ε α).BlindTo R := fun _ _ h => ⟨rfl, h⟩

theorem BlindTo.caught {step : Attempt σ ε α} (h : step.BlindTo R) :
    (step.caught : Attempt σ δ (Except ε α)).BlindTo R := by
  intro s t hst
  obtain ⟨hresult, hnext⟩ := h s t hst
  exact ⟨congrArg Except.ok hresult, hnext⟩

theorem BlindTo.bind {step : Attempt σ ε α} {next : α → Attempt σ ε β} (hstep : step.BlindTo R)
    (hnext : ∀ x, (next x).BlindTo R) : (step >>= next : Attempt σ ε β).BlindTo R := by
  intro s t hst
  obtain ⟨hresult, hrelated⟩ := hstep s t hst
  rcases hs : step.outcome s with ⟨fault | x, u⟩ <;> rcases ht : step.outcome t with ⟨fault' | y, v⟩
  all_goals rw [hs, ht] at hresult hrelated
  · rw [outcome_bind_error hs, outcome_bind_error ht]
    cases hresult
    exact ⟨rfl, hrelated⟩
  · cases hresult
  · cases hresult
  · rw [outcome_bind_ok hs, outcome_bind_ok ht]
    cases hresult
    exact hnext _ u v hrelated

theorem blindTo_throw (fault : ε) : (throw fault : Attempt σ ε α).BlindTo R :=
  fun _ _ h => ⟨rfl, h⟩

theorem blindTo_ofResult (result : Except ε α) : (ofResult result : Attempt σ ε α).BlindTo R :=
  fun _ _ h => ⟨rfl, h⟩

theorem blindTo_modify {f : σ → σ} (h : ∀ s t, R s t → R (f s) (f t)) :
    (modify f : Attempt σ ε PUnit).BlindTo R := fun s t hst => ⟨rfl, h s t hst⟩

theorem BlindTo.mapFault {step : Attempt σ ε α} (h : step.BlindTo R) (f : ε → δ) :
    (step.mapFault f).BlindTo R := by
  intro s t hst
  obtain ⟨hresult, hnext⟩ := h s t hst
  rw [outcome_mapFault, outcome_mapFault]
  exact ⟨congrArg (Except.mapError f) hresult, hnext⟩

/-- The parts on which a step works are related, and what it makes of them is put back alike. -/
theorem BlindTo.on {Q : τ → τ → Prop} {get : σ → τ} {set : τ → σ → σ} {step : Attempt τ ε α}
    (h : step.BlindTo Q) (hget : ∀ s t, R s t → Q (get s) (get t))
    (hset : ∀ s t x y, R s t → Q x y → R (set x s) (set y t)) : (step.on get set).BlindTo R := by
  intro s t hst
  obtain ⟨hresult, hnext⟩ := h _ _ (hget s t hst)
  rw [outcome_on, outcome_on]
  exact ⟨hresult, hset s t _ _ hst hnext⟩

/-- What is done depends on what related states share. -/
theorem blindTo_get {next : σ → Attempt σ ε β}
    (h : ∀ s t, R s t → next t = next s ∧ (next s).BlindTo R) :
    (get >>= next : Attempt σ ε β).BlindTo R := by
  intro s t hst
  obtain ⟨hsame, hnext⟩ := h s t hst
  rw [outcome_bind, outcome_get, outcome_bind, outcome_get]
  dsimp only
  rw [hsame]
  exact hnext s t hst

/-- A step that is only taken under a condition. -/
theorem BlindTo.beforeIf {p : Prop} [Decidable p] {step : Attempt σ ε α} {rest : Attempt σ ε β}
    (hstep : step.BlindTo R) (hrest : rest.BlindTo R) :
    (if p then step >>= fun _ => rest else rest : Attempt σ ε β).BlindTo R := by
  by_cases hp : p
  · rw [if_pos hp]
    exact hstep.bind fun _ => hrest
  · rw [if_neg hp]
    exact hrest

end

end Attempt
end Placement
