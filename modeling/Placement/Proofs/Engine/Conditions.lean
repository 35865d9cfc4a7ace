import Placement.Engine.Preload
import Placement.Proofs.Property.Meaning
/-! # What conditions say

Whether a condition holds is found out step by step: the device is asked, computed
properties are looked up among the answers so far or asked of the history, which counts the
questions.  `Scene.holds` says **without any steps** whether a condition holds, from the
events and attributes alone.

Where the history does not fail this is what comes of the steps (`conditionHolds_spec`,
`firstMatch_spec`).  In particular conditions share the answers to computed properties, but
**no condition is affected by those tried before it** other than in that the device was asked
for each of them (`Scene.ahead`).
-/
namespace Placement
open Attempt

/-- What the conditions for one event are judged by. -/
structure Scene where
  /-- When each event happened. -/
  events : Dict (List Timestamp)
  /-- As of when computed properties are answered. -/
  now : Timestamp
  user : Attributes
  /-- What the device shows each time that it is asked; where it shows nothing it crashes. -/
  device : Tape (Option Attributes)
  /-- The parameters of the event. -/
  parameters : Attributes

/-! ## Evaluating with two hosts -/

section
variable {m n : Type → Type} [Monad m] [Monad n] {R : {α : Type} → m α → n α → Prop}
  (host : HostCall → m Value) (answer : HostCall → n Value)

theorem resolve_related (hpure : ∀ {α : Type} (x : α), R (pure x) (pure x))
    (hbind : ∀ {α β : Type} {x : m α} {y : n α} {f : α → m β} {g : α → n β},
      R x y → (∀ a, R (f a) (g a)) → R (x >>= f) (y >>= g))
    (hhost : ∀ call, R (host call) (answer call)) (calls : List HostCall) :
    R (HostCall.resolve host calls) (HostCall.resolve answer calls) := by
  induction calls with
  | nil => exact hpure _
  | cons call rest ih => exact hbind (hhost call) fun v => hbind ih fun resolved => hpure _

/-- **Conditions do nothing but ask**: what is kept by each answer, and by doing one thing
after the other, is kept by the evaluation of a condition. -/
theorem Rule.evaluate_related (hpure : ∀ {α : Type} (x : α), R (pure x) (pure x))
    (hbind : ∀ {α β : Type} {x : m α} {y : n α} {f : α → m β} {g : α → n β},
      R x y → (∀ a, R (f a) (g a)) → R (x >>= f) (y >>= g))
    (hhost : ∀ call, R (host call) (answer call)) (rule : Rule) (ctx : Context) :
    R (rule.evaluate ctx host) (rule.evaluate ctx answer) := by
  rw [Rule.evaluate, Rule.evaluate]
  split
  · exact hpure _
  · exact hpure _
  · rw [Expression.evaluate, Expression.evaluate]
    split
    · exact hpure _
    · exact hpure _
    · exact hbind (resolve_related host answer hpure hbind hhost _) fun resolved => hpure _

end

/-! ## What conditions are made of -/

namespace Resolver

/-- What is said of steps may be said of steps put together, and holds of each answer. -/
structure Composes (P : {α : Type} → Attempt Resolver Crash α → Prop) : Prop where
  pure : ∀ {α : Type} (x : α), P (pure x : Attempt Resolver Crash α)
  bind : ∀ {α β : Type} {step : Attempt Resolver Crash α} {next : α → Attempt Resolver Crash β},
    P step → (∀ x, P (next x)) → P (step >>= next)
  answer : ∀ request : PropertyRequest, P (answer request)

namespace Composes
variable {P : {α : Type} → Attempt Resolver Crash α → Prop} (hP : Composes P)
include hP

theorem answerCall (call : HostCall) : P (answerCall call) := by
  rw [Resolver.answerCall]
  split
  · exact hP.answer _
  · exact hP.pure _

theorem attributes (requests : List PropertyRequest) : P (attributes requests) := by
  rw [Resolver.attributes]
  generalize (∅ : Attributes) = start
  induction requests generalizing start with
  | nil => exact hP.pure _
  | cons request rest ih =>
      rw [List.foldlM_cons]
      exact hP.bind (hP.bind (hP.answer request) fun answer => hP.pure _) ih

/-- **It holds of conditions**: both where properties are asked for beforehand, and where host
calls ask for them. -/
theorem conditionIn (rule : Rule) (user device parameters : Attributes) :
    P (Engine.conditionIn rule user device parameters) := by
  refine hP.bind (hP.attributes rule.requests) fun computed => hP.bind ?_ ?_
  · exact Rule.evaluate_related (m := Attempt Resolver Crash) (n := Attempt Resolver Crash)
      (R := fun step _ => P step) Resolver.answerCall Resolver.answerCall hP.pure hP.bind
      hP.answerCall rule _
  · rintro (fault | holds)
    · exact hP.pure _
    · exact hP.pure _

end Composes
end Resolver

namespace Scene

/-- The history of the events. -/
def history (scene : Scene) : History := { History.empty with events := scene.events }

/-- What the history says about a computed property. -/
def consulted (scene : Scene) (request : PropertyRequest) : Except Crash Int :=
  match request.property.question with
  | .since measure =>
      .ok (((scene.history.last? request.eventName).map (measure scene.now)).getD 0)
  | .within window =>
      match scene.now.minus? window with
      | none => .error .unrepresentableTime
      | some start =>
          .ok (Resolver.ofCount (scene.history.countIn request.eventName start scene.now))
  | .ever =>
      .ok (Resolver.ofCount (scene.history.countIn request.eventName Timestamp.first scene.now))

/-- **The answer to a computed property.** -/
def answer (scene : Scene) (request : PropertyRequest) : Except Crash Value := do
  return .int (Int64.ofInt (← scene.consulted request))

/-- The answer to a host call. -/
def answerCall (scene : Scene) (call : HostCall) : Except Crash Value :=
  match Resolver.requested? call with
  | some request => scene.answer request
  | none => .ok (.bool false)

/-- The device attributes that show the answers to some requests. -/
def computed (scene : Scene) (requests : List PropertyRequest) : Except Crash Attributes :=
  requests.foldlM (fun attributes request => do
    return attributes.insert request.attributeName (← scene.answer request)) ∅

/-- Whether the condition of a rule holds for a device with certain attributes. -/
def holdsOn (scene : Scene) (rule : Rule) (device : Attributes) : Except Crash Bool := do
  let computed ← scene.computed rule.requests
  let ctx := Context.ofAttributes scene.user (device.union computed) scene.parameters
  match ← rule.evaluate ctx scene.answerCall with
  | .ok holds => return holds
  | .error _ => return false

/-- **Whether the condition of a rule holds**, or the crash that judging it ends in.  A
condition that cannot be evaluated does not hold. -/
def holds (scene : Scene) (rule : Rule) : Except Crash Bool :=
  match scene.device.head with
  | some device => scene.holdsOn rule device
  | none => .error .device

/-- The scene once so many conditions are judged: the device has been asked for each. -/
def ahead (scene : Scene) (n : Nat) : Scene := { scene with device := scene.device.drop n }

/-- **The first of some rules whose condition holds**, and how many conditions are judged
to find it. -/
def search (scene : Scene) : List Rule → Except Crash (Option Rule) × Nat
  | [] => (.ok none, 0)
  | rule :: rest =>
      match scene.holds rule with
      | .error crash => (.error crash, 1)
      | .ok true => (.ok (some rule), 1)
      | .ok false => (((scene.ahead 1).search rest).1, ((scene.ahead 1).search rest).2 + 1)

/-- **None of some rules holds** when they are judged one after the other. -/
def Misses (scene : Scene) (rules : List Rule) : Prop :=
  ∀ i rule, rules[i]? = some rule → (scene.ahead i).holds rule = .ok false

theorem misses_nil (scene : Scene) : scene.Misses [] := by
  intro i rule hrule
  rw [List.getElem?_nil] at hrule
  cases hrule

theorem misses_cons {scene : Scene} {rule : Rule} {rest : List Rule}
    (hrule : scene.holds rule = .ok false) (hrest : (scene.ahead 1).Misses rest) :
    scene.Misses (rule :: rest) := by
  intro i other hother
  cases i with
  | zero =>
      cases hother
      exact hrule
  | succ i => exact hrest i other hother

/-- **How a search ends**: past all rules, or at the first one that does not fail to hold. -/
theorem search_ends (scene : Scene) (rules : List Rule) :
    (scene.Misses rules ∧ scene.search rules = (.ok none, rules.length)) ∨
    ∃ missed rule rest, rules = missed ++ rule :: rest ∧ scene.Misses missed ∧
      (((scene.ahead missed.length).holds rule = .ok true ∧
          scene.search rules = (.ok (some rule), missed.length + 1)) ∨
        ∃ crash, (scene.ahead missed.length).holds rule = .error crash ∧
          scene.search rules = (.error crash, missed.length + 1)) := by
  induction rules generalizing scene with
  | nil => exact .inl ⟨misses_nil scene, rfl⟩
  | cons rule rest ih =>
      rcases hrule : scene.holds rule with crash | (_ | _)
      · refine .inr ⟨[], rule, rest, rfl, misses_nil scene, .inr ⟨crash, hrule, ?_⟩⟩
        rw [search, hrule]
        rfl
      · rcases ih (scene.ahead 1) with
          ⟨hrest, hsearch⟩ | ⟨missed, first, more, rfl, hmissed, hends⟩
        · refine .inl ⟨misses_cons hrule hrest, ?_⟩
          rw [search, hrule, hsearch]
          rfl
        · refine .inr ⟨rule :: missed, first, more, rfl, misses_cons hrule hmissed, ?_⟩
          rw [search, hrule]
          rcases hends with ⟨hfirst, hsearch⟩ | ⟨crash, hfirst, hsearch⟩
          · exact .inl ⟨hfirst, by rw [hsearch]; rfl⟩
          · exact .inr ⟨crash, hfirst, by rw [hsearch]; rfl⟩
      · refine .inr ⟨[], rule, rest, rfl, misses_nil scene, .inl ⟨hrule, ?_⟩⟩
        rw [search, hrule]
        rfl

/-- **Whether each of some rules allows its paywall to be loaded ahead.**  The device is asked
only where the answer depends on the condition. -/
def allowances (scene : Scene) : List Rule → Except Crash (List (Rule × Bool))
  | [] => .ok []
  | rule :: rest =>
      if rule.preload.behavior = .ifTrue then do
        let holds ← scene.holds rule
        let others ← (scene.ahead 1).allowances rest
        return (rule, rule.preload.allows holds) :: others
      else do
        let others ← scene.allowances rest
        return (rule, rule.preload.allows true) :: others

/-- How many conditions are judged to find this out. -/
def asks (scene : Scene) : List Rule → Nat
  | [] => 0
  | rule :: rest =>
      if rule.preload.behavior = .ifTrue then
        match scene.holds rule with
        | .error _ => 1
        | .ok _ => (scene.ahead 1).asks rest + 1
      else scene.asks rest

/-! ## Finding out -/

/-- The answers found so far are right. -/
def Right (scene : Scene) (resolved : Resolved) : Prop :=
  ∀ request answer, resolved.lookup request = some answer → scene.answer request = .ok answer

/-- The resolver works on the events of the scene, as of its time, and knows no wrong
answer. -/
structure Shows (scene : Scene) (r : Resolver) : Prop where
  events : r.history.events = scene.events
  faults : r.history.faults = .none
  now : r.now = scene.now
  resolved : scene.Right r.resolved

variable {scene : Scene}

theorem right_nil : scene.Right [] := nofun

theorem Right.cons {resolved : Resolved} (h : scene.Right resolved) {request : PropertyRequest}
    {answer : Value} (hanswer : scene.answer request = .ok answer) :
    scene.Right ((request, answer) :: resolved) := by
  intro other found hfound
  rw [List.lookup_cons] at hfound
  by_cases hsame : other = request
  · subst hsame
    rw [beq_self_eq_true] at hfound
    cases hfound
    exact hanswer
  · rw [beq_false_of_ne hsame] at hfound
    exact h other found hfound

theorem times_eq {history : History} (h : history.events = scene.events) (name : String) :
    history.times name = scene.history.times name := by
  rw [History.times, h]
  rfl

theorem last?_eq {history : History} (h : history.events = scene.events) (name : String) :
    history.last? name = scene.history.last? name := by
  rw [History.last?, History.last?, times_eq h]

theorem countIn_eq {history : History} (h : history.events = scene.events) (name : String)
    (start stop : Timestamp) :
    history.countIn name start stop = scene.history.countIn name start stop := by
  rw [History.countIn, History.countIn, times_eq h]

/-- A question whose answer depends on the events only. -/
theorem yields_asked {α : Type} (access : HistoryAccess) {answer : History → α} {x : α}
    (f : α → Int) (h : ∀ history : History, history.events = scene.events → answer history = x) :
    Yields scene.Shows (Resolver.asked do return f (← History.ask access answer)) (.ok (f x)) := by
  rintro ⟨⟨events, reads, faults⟩, now, resolved⟩ ⟨hevents, hfaults, hnow, hresolved⟩
  cases hfaults
  refine ⟨?_, hevents, rfl, hnow, hresolved⟩
  exact congrArg (fun x => Except.ok (f x)) (h _ hevents)

theorem yields_consult (request : PropertyRequest) :
    Yields scene.Shows (Resolver.consult request) (scene.consulted request) := by
  intro r hr
  rw [Resolver.consult, outcome_bind_ok (outcome_get r), consulted, hr.now]
  cases request.property.question with
  | since measure =>
      have hlast : ∀ history : History, history.events = scene.events →
          history.last? request.eventName = scene.history.last? request.eventName :=
        fun _ hevents => last?_eq hevents _
      exact (yields_asked .mostRecent _ hlast) r hr
  | within window =>
      dsimp only
      cases scene.now.minus? window with
      | none => exact yields_throw _ r hr
      | some start =>
          exact yields_asked .count Resolver.ofCount (fun _ h => countIn_eq h _ _ _) r hr
  | ever => exact yields_asked .count Resolver.ofCount (fun _ h => countIn_eq h _ _ _) r hr

/-- **An answer is looked up, or asked for once**: either way it is the right one. -/
theorem yields_answer (request : PropertyRequest) :
    Yields scene.Shows (Resolver.answer request) (scene.answer request) := by
  intro r hr
  rw [Resolver.answer, outcome_bind_ok (outcome_get r), Resolver.known?]
  cases hknown : r.resolved.lookup request with
  | some answer => exact ⟨(hr.resolved request answer hknown).symm, hr⟩
  | none =>
      obtain ⟨hresult, hshows⟩ := yields_consult request r hr
      dsimp only
      rw [answer, ← hresult]
      rcases hconsult : (Resolver.consult request).outcome r with ⟨crash | n, t⟩
      · rw [hconsult] at hshows
        rw [outcome_bind_error hconsult]
        exact ⟨rfl, hshows⟩
      · rw [hconsult] at hresult hshows
        rw [outcome_bind_ok hconsult]
        refine ⟨rfl, hshows.events, hshows.faults, hshows.now, hshows.resolved.cons ?_⟩
        rw [answer, ← hresult]
        rfl

theorem yields_answerCall (call : HostCall) :
    Yields scene.Shows (Resolver.answerCall call) (scene.answerCall call) := by
  rw [Resolver.answerCall, answerCall]
  cases Resolver.requested? call with
  | some request => exact yields_answer request
  | none => exact yields_pure _

theorem yields_attributes (requests : List PropertyRequest) :
    Yields scene.Shows (Resolver.attributes requests) (scene.computed requests) := by
  rw [Resolver.attributes, computed]
  generalize (∅ : Attributes) = start
  induction requests generalizing start with
  | nil => exact yields_pure _
  | cons request rest ih =>
      rw [List.foldlM_cons, List.foldlM_cons]
      exact ((yields_answer request).bind fun answer => yields_pure _).bind ih

/-- **The steps come to what the scene says.** -/
theorem yields_conditionIn (rule : Rule) (device : Attributes) :
    Yields scene.Shows (Engine.conditionIn rule scene.user device scene.parameters)
      (scene.holdsOn rule device) := by
  rw [Engine.conditionIn, holdsOn]
  refine (yields_attributes rule.requests).bind fun computed => ?_
  refine Yields.bind ?_ ?_
  · exact Rule.evaluate_related (m := Attempt Resolver Crash) (n := Except Crash)
      (R := fun step result => Yields scene.Shows step result)
      Resolver.answerCall scene.answerCall yields_pure Yields.bind yields_answerCall rule _
  · rintro (fault | holds)
    · exact yields_pure _
    · exact yields_pure _

/-! ## Crashes -/

/-- Some computed property counts from a time before the first one there is. -/
def CountsTooFarBack (now : Timestamp) : Prop := ∃ request, Resolver.TooEarly now request

/-- The result is no crash, or one that has to do with time. -/
def LateEnough (now : Timestamp) {α : Type} (result : Except Crash α) : Prop :=
  ∀ crash, result = .error crash → crash = .unrepresentableTime ∧ CountsTooFarBack now

theorem lateEnough_ok {α : Type} (x : α) : LateEnough scene.now (.ok x : Except Crash α) := nofun

theorem LateEnough.bind {α β : Type} {result : Except Crash α} {rest : α → Except Crash β}
    (hresult : LateEnough scene.now result) (hrest : ∀ x, LateEnough scene.now (rest x)) :
    LateEnough scene.now (result >>= rest) := by
  rcases result with crash | x
  · intro _ h
    cases h
    exact hresult crash rfl
  · exact hrest x

theorem lateEnough_answer (request : PropertyRequest) :
    LateEnough scene.now (scene.answer request) := by
  refine LateEnough.bind ?_ fun n => lateEnough_ok _
  rw [consulted]
  split
  · exact lateEnough_ok _
  · rename_i window hwindow
    split
    · rename_i hnone
      rintro _ ⟨⟩
      have hwindow := Property.window_iff.mp hwindow
      exact ⟨rfl, request, window, hwindow, (Resolver.minus?_eq_none_iff hwindow).mp hnone⟩
    · exact lateEnough_ok _
  · exact lateEnough_ok _

theorem lateEnough_answerCall (call : HostCall) : LateEnough scene.now (scene.answerCall call) := by
  rw [answerCall]
  split
  · exact lateEnough_answer _
  · exact lateEnough_ok _

theorem lateEnough_computed (requests : List PropertyRequest) :
    LateEnough scene.now (scene.computed requests) := by
  rw [computed]
  generalize (∅ : Attributes) = start
  induction requests generalizing start with
  | nil => exact lateEnough_ok _
  | cons request rest ih =>
      rw [List.foldlM_cons]
      exact ((lateEnough_answer request).bind fun answer => lateEnough_ok _).bind ih

/-- **What brings a condition down**: the source of device attributes, or a property that
counts from too early a time. -/
theorem holds_error {rule : Rule} {crash : Crash} (h : scene.holds rule = .error crash) :
    crash = .device ∧ scene.device.head = none ∨
      crash = .unrepresentableTime ∧ CountsTooFarBack scene.now := by
  rw [holds] at h
  cases hdevice : scene.device.head with
  | none =>
      rw [hdevice] at h
      cases h
      exact .inl ⟨rfl, rfl⟩
  | some device =>
      rw [hdevice] at h
      refine .inr (LateEnough.bind (lateEnough_computed rule.requests) (fun computed => ?_) crash h)
      refine LateEnough.bind ?_ ?_
      · exact Rule.evaluate_related (m := Except Crash) (n := Except Crash)
          (R := fun result _ => LateEnough scene.now result) scene.answerCall scene.answerCall
          lateEnough_ok LateEnough.bind lateEnough_answerCall rule _
      · rintro (fault | holds)
        · exact lateEnough_ok _
        · exact lateEnough_ok _

end Scene

namespace Engine
variable {d e f : Engine} {user parameters : Attributes} {now : Timestamp} {resolved : Resolved}

/-- By what the engine judges the conditions for an event. -/
def scene (engine : Engine) (user parameters : Attributes) (now : Timestamp) : Scene where
  events := engine.history.events
  now
  user
  device := engine.device.answers
  parameters

/-- **What conditions leave**: the device was asked so many times, and the history now and
then. -/
def Looked (times : Nat) (e d : Engine) : Prop :=
  ∃ reads, d = { e with
    history := { e.history with reads }
    device := ⟨e.device.answers.drop times, e.device.queries + times⟩ }

theorem Looked.refl (e : Engine) : Looked 0 e e := ⟨e.history.reads, rfl⟩

theorem Looked.trans {m n : Nat} (hd : Looked m e d) (hf : Looked n d f) : Looked (m + n) e f := by
  obtain ⟨_, rfl⟩ := hd
  obtain ⟨reads, rfl⟩ := hf
  exact ⟨reads, by rw [Nat.add_assoc, ← Tape.drop_drop]⟩

theorem Looked.scene_eq {n : Nat} (h : Looked n e d) :
    d.scene user parameters now = (e.scene user parameters now).ahead n := by
  obtain ⟨_, rfl⟩ := h
  rfl

theorem Looked.faults {n : Nat} (h : Looked n e d) (hfaults : e.history.faults = .none) :
    d.history.faults = .none := by
  obtain ⟨_, rfl⟩ := h
  exact hfaults

theorem Looked.cache {n : Nat} (h : Looked n e d) : d.cache = e.cache := by
  obtain ⟨_, rfl⟩ := h
  rfl

theorem Looked.reporter {n : Nat} (h : Looked n e d) : d.reporter = e.reporter := by
  obtain ⟨_, rfl⟩ := h
  rfl

/-- The engine once the device was asked. -/
def askedDevice (engine : Engine) : Engine :=
  { engine with device := ⟨engine.device.answers.tail, engine.device.queries + 1⟩ }

theorem looked_askedDevice (e : Engine) : Looked 1 e e.askedDevice := ⟨e.history.reads, rfl⟩

theorem outcome_askDevice_eq (e : Engine) :
    askDevice.outcome e =
      (e.device.answers.head.elim (.error .device) .ok, e.askedDevice) := by
  rw [askDevice, outcome_bind, outcome_get]
  dsimp only
  rw [outcome_bind, outcome_modify]
  dsimp only
  cases e.device.answers.head <;> rfl

theorem outcome_askDevice_some {attributes : Attributes}
    (h : e.device.answers.head = some attributes) :
    askDevice.outcome e = (.ok attributes, e.askedDevice) := by
  rw [outcome_askDevice_eq, h]
  rfl

theorem outcome_askDevice_none (h : e.device.answers.head = none) :
    askDevice.outcome e = (.error .device, e.askedDevice) := by
  rw [outcome_askDevice_eq, h]
  rfl

theorem outcome_resolving {α : Type} (step : Attempt Resolver Crash α) :
    (resolving now resolved step).outcome e =
      let (result, r) := step.outcome ⟨e.history, now, resolved⟩
      (result.map (·, r.resolved), { e with history := r.history }) := by
  unfold outcome resolving
  rcases step ⟨e.history, now, resolved⟩ with ⟨_ | _, r⟩ <;> rfl

/-- A condition is judged once the device has answered. -/
theorem outcome_conditionHolds {device : Attributes} (hup : e.device.answers.head = some device)
    (rule : Rule) (user parameters : Attributes) (now : Timestamp) (resolved : Resolved) :
    (conditionHolds rule user parameters now resolved).outcome e =
      let (result, r) := (conditionIn rule user device parameters).outcome
        ⟨e.history, now, resolved⟩
      (result.map (·, r.resolved), { e.askedDevice with history := r.history }) := by
  rw [conditionHolds, outcome_bind_ok (outcome_askDevice_some hup), outcome_resolving]
  rfl

theorem outcome_conditionHolds_none (hdown : e.device.answers.head = none) (rule : Rule)
    (user parameters : Attributes) (now : Timestamp) (resolved : Resolved) :
    (conditionHolds rule user parameters now resolved).outcome e =
      (.error .device, e.askedDevice) := by
  rw [conditionHolds, outcome_bind_error (outcome_askDevice_none hdown)]

/-- A resolver that shows the scene only asked questions. -/
theorem history_eq_of_shows {r : Resolver} (h : (e.scene user parameters now).Shows r)
    (hfaults : e.history.faults = .none) :
    r.history = { e.history with reads := r.history.reads } := by
  have hevents : r.history.events = e.history.events := h.events
  have hnone : r.history.faults = e.history.faults := h.faults.trans hfaults.symm
  rcases r with ⟨⟨events, reads, faults⟩, now, resolved⟩
  cases hevents
  cases hnone
  rfl

/-- A condition among right answers says what the scene says, and leaves right answers. -/
theorem conditionIn_spec (hfaults : e.history.faults = .none)
    (hright : (e.scene user parameters now).Right resolved) (rule : Rule) (device : Attributes) :
    ∃ resolved' d, Looked 0 e d ∧ (e.scene user parameters now).Right resolved' ∧
      (resolving now resolved (conditionIn rule user device parameters)).outcome e =
        (((e.scene user parameters now).holdsOn rule device).map (·, resolved'), d) := by
  have hyields : Yields (e.scene user parameters now).Shows
      (conditionIn rule user device parameters)
      ((e.scene user parameters now).holdsOn rule device) :=
    Scene.yields_conditionIn rule device
  obtain ⟨hresult, hshows⟩ := hyields ⟨e.history, now, resolved⟩ ⟨rfl, hfaults, rfl, hright⟩
  rw [outcome_resolving]
  rcases h : (conditionIn rule user device parameters).outcome ⟨e.history, now, resolved⟩
    with ⟨result, r⟩
  rw [h] at hresult hshows
  subst hresult
  refine ⟨r.resolved, _, ⟨r.history.reads, ?_⟩, hshows.resolved, rfl⟩
  rw [← history_eq_of_shows hshows hfaults, Nat.add_zero]
  rfl

theorem conditionHolds_spec (hfaults : e.history.faults = .none)
    (hright : (e.scene user parameters now).Right resolved) (rule : Rule) :
    ∃ resolved' d, Looked 1 e d ∧ (e.scene user parameters now).Right resolved' ∧
      (conditionHolds rule user parameters now resolved).outcome e =
        (((e.scene user parameters now).holds rule).map (·, resolved'), d) := by
  rw [Scene.holds]
  cases hdevice : (e.scene user parameters now).device.head with
  | none =>
      rw [outcome_conditionHolds_none hdevice]
      exact ⟨resolved, _, looked_askedDevice e, hright, rfl⟩
  | some device =>
      have hasked : (e.askedDevice.scene user parameters now).Right resolved := hright
      obtain ⟨resolved', d, hlooked, hright', houtcome⟩ :=
        conditionIn_spec (e := e.askedDevice) hfaults hasked rule device
      rw [conditionHolds, outcome_bind_ok (outcome_askDevice_some hdevice)]
      exact ⟨resolved', d, (looked_askedDevice e).trans hlooked, hright', houtcome⟩

/-! ## The first match -/

/-- The miss that the rules leave if none of them holds. -/
def missOf (rules : List Rule) : Option NoMatch :=
  rules.getLast?.map fun rule => ⟨.expression, rule.experimentId⟩

theorem missOf_cons_or (rule : Rule) (rest : List Rule) (last : Option NoMatch) :
    (missOf (rule :: rest)).or last =
      (missOf rest).or (some ⟨.expression, rule.experimentId⟩) := by
  rw [missOf, missOf, List.getLast?_cons]
  cases rest.getLast? <;> rfl

/-- What is recorded of a rule that matched. -/
def recordingMatch (intent : Intent) (rule : Rule) (t : Timestamp) (engine : Engine) : Engine :=
  match intent with
  | .commit => { engine with
      history := { engine.history with
        events := History.record engine.history.events rule.occurrenceEvent t } }
  | .preview => engine

theorem outcome_judge_true (hfaults : e.history.faults = .none) (rule : Rule) (intent : Intent)
    (t : Timestamp) :
    (onHistory (rule.judge true intent t) : Attempt Engine Crash _).outcome e =
      (.ok (.ok rule), e.recordingMatch intent rule t) := by
  rcases e with ⟨cache, ⟨events, reads, faults⟩, user, device, reporter, seedFromUserId⟩
  cases hfaults
  cases intent <;> rfl

theorem outcome_judge_false (rule : Rule) (intent : Intent) (t : Timestamp) :
    (onHistory (rule.judge false intent t) : Attempt Engine Crash _).outcome e =
      (.ok (.error ⟨.expression, rule.experimentId⟩), e) := by
  rfl

/-- **The rules are tried as the scene searches them**: the first one that holds is the one
that matches, and is recorded. -/
theorem firstMatch_spec (hfaults : e.history.faults = .none) (event : Event) (user : Attributes)
    (intent : Intent) (rules : List Rule) (last : Option NoMatch)
    (hright : (e.scene user event.parameters event.timestamp).Right resolved) :
    let search := (e.scene user event.parameters event.timestamp).search rules
    ∃ d, Looked search.2 e d ∧
      (firstMatch event user intent rules resolved last).outcome e =
        match search.1 with
        | .error crash => (.error crash, d)
        | .ok none => (.ok (.error ((missOf rules).or last)), d)
        | .ok (some rule) => (.ok (.ok rule), d.recordingMatch intent rule event.timestamp) := by
  induction rules generalizing e resolved last with
  | nil => exact ⟨e, .refl e, rfl⟩
  | cons rule rest ih =>
      obtain ⟨resolved', d, hlooked, hright', hcondition⟩ := conditionHolds_spec hfaults hright rule
      rw [firstMatch, Scene.search]
      rcases hholds : (e.scene user event.parameters event.timestamp).holds rule
        with crash | (_ | _)
      · rw [hholds] at hcondition
        rw [outcome_bind_error hcondition]
        exact ⟨d, hlooked, rfl⟩
      · rw [hholds] at hcondition
        rw [outcome_bind_ok hcondition, outcome_bind_ok (outcome_judge_false rule intent _)]
        -- The next rule is tried with more answers kept, after one more query of the device.
        have hnext : (d.scene user event.parameters event.timestamp).Right resolved' := by
          rw [hlooked.scene_eq]
          exact hright'
        obtain ⟨d', hlooked', hrest⟩ := ih (hlooked.faults hfaults)
          (some ⟨.expression, rule.experimentId⟩) hnext
        rw [hlooked.scene_eq] at hlooked' hrest
        refine ⟨d', Nat.add_comm .. ▸ hlooked.trans hlooked', ?_⟩
        rw [hrest, missOf_cons_or]
      · rw [hholds] at hcondition
        rw [outcome_bind_ok hcondition,
          outcome_bind_ok (outcome_judge_true (hlooked.faults hfaults) rule intent _)]
        exact ⟨d, hlooked, rfl⟩

/-! ## Loading ahead -/

/-- What rules allow is found out as the scene says. -/
theorem preloadAllowances_spec (user : Attributes) (now : Timestamp)
    (hfaults : e.history.faults = .none) (rules : List Rule)
    (hright : (e.scene user ∅ now).Right resolved) :
    ∃ d, Looked ((e.scene user ∅ now).asks rules) e d ∧
      (preloadAllowances user now rules resolved).outcome e =
        ((e.scene user ∅ now).allowances rules, d) := by
  induction rules generalizing e resolved with
  | nil => exact ⟨e, .refl e, rfl⟩
  | cons rule rest ih =>
      have hrest : ∀ {n d} {resolved : Resolved} (holds : Bool), Looked n e d →
          (e.scene user ∅ now).Right resolved →
          ∃ f, Looked (n + ((e.scene user ∅ now).ahead n).asks rest) e f ∧ (do
              let others ← preloadAllowances user now rest resolved
              return (rule, rule.preload.allows holds) :: others :
            Attempt Engine Crash (List (Rule × Bool))).outcome d =
              (do
                let others ← ((e.scene user ∅ now).ahead n).allowances rest
                return (rule, rule.preload.allows holds) :: others, f) := by
        intro n d resolved holds hlooked hright
        have hnext : (d.scene user ∅ now).Right resolved := by
          rw [hlooked.scene_eq]
          exact hright
        obtain ⟨f, hlooked', hothers⟩ := ih (hlooked.faults hfaults) hnext
        rw [hlooked.scene_eq] at hlooked' hothers
        refine ⟨f, hlooked.trans hlooked', ?_⟩
        rcases hallowed : ((e.scene user ∅ now).ahead n).allowances rest with crash | others
        · rw [hallowed] at hothers
          rw [outcome_bind_error hothers]
          rfl
        · rw [hallowed] at hothers
          rw [outcome_bind_ok hothers]
          rfl
      rw [preloadAllowances, Scene.allowances, Scene.asks]
      by_cases hiftrue : rule.preload.behavior = .ifTrue
      · rw [if_pos hiftrue, if_pos hiftrue, if_pos hiftrue]
        obtain ⟨resolved', d, hlooked, hright', hcondition⟩ :=
          conditionHolds_spec hfaults hright rule
        rcases hholds : (e.scene user ∅ now).holds rule with crash | holds
        · rw [hholds] at hcondition
          rw [outcome_bind_error hcondition]
          exact ⟨d, hlooked, rfl⟩
        · rw [hholds] at hcondition
          rw [outcome_bind_ok hcondition]
          dsimp only
          rw [Nat.add_comm]
          exact hrest holds hlooked hright'
      · rw [if_neg hiftrue, if_neg hiftrue, if_neg hiftrue, ← Nat.zero_add (Scene.asks _ rest)]
        exact hrest true (.refl e) hright

end Engine
end Placement
