import Mathlib.Data.Finset.Card
import Placement.Proofs.Property.Meaning
/-! # One question for each property

A resolver is used in three ways: for device attributes, for single properties, and for host
calls.  Meanwhile the history goes on, and it may fail.  **All uses share the answers**
(`run_spec`): the history is asked once for each request, and the answer is what it says then
(`Says`), for good.

The questions are counted by the requests that are answered (`Visited.reads`).  What a request
is told is fixed by the history at the moment when it is first made (`firstAsked?`).
-/
namespace Placement
open Attempt

namespace Resolver
variable {r t u : Resolver} {now : Timestamp} {request : PropertyRequest}

/-! ## Uses -/

/-- What a resolver is used for, and what happens to its history meanwhile. -/
inductive Use
  | prefill (requests : List PropertyRequest)
  | compute (request : PropertyRequest)
  | call (call : HostCall)
  | append (name : String) (t : Timestamp)

/-- What a use comes to. -/
inductive Shown
  | attributes (attributes : Attributes)
  | value (value : Value)
  | nothing

/-- The requests that a use makes, in order. -/
def Use.requests : Use → List PropertyRequest
  | .prefill requests => requests
  | .compute request => [request]
  | .call asked => (requested? asked).toList
  | .append .. => []

/-- The requests that some uses make, in order. -/
def requested (uses : List Use) : List PropertyRequest := uses.flatMap Use.requests

/-- Use a resolver.  Whether an append fails makes no difference to the resolver. -/
def Use.run : Use → Attempt Resolver Crash Shown
  | .prefill requests => return .attributes (← attributes requests)
  | .compute request => return .value (← answer request)
  | .call asked => return .value (← answerCall asked)
  | .append name t => do
      let _ ← ((History.append name t).on history fun history r => { r with history }).caught
      return .nothing

/-- Use a resolver many times. -/
def run : List Use → Attempt Resolver Crash (List Shown)
  | [] => return []
  | use :: rest => do
      let shown ← use.run
      return shown :: (← run rest)

/-- The resolver once it has answered some requests. -/
def visit : List PropertyRequest → Resolver → Resolver
  | [], r => r
  | request :: rest, r => visit rest ((answer request).outcome r).2

/-- **The history at the moment when a request is first made.** -/
def firstAsked? (request : PropertyRequest) : List Use → Resolver → Option History
  | [], _ => none
  | use :: rest, r =>
      if request ∈ use.requests then
        some (visit (use.requests.takeWhile (· ≠ request)) r).history
      else firstAsked? request rest (use.run.outcome r).2

/-- **What a use shows, given the answers to requests**: attributes show each answer under the
name of its request, and a call that asks for no property shows `false`. -/
inductive Shows (answers : PropertyRequest → Value) : Use → Shown → Prop
  | prefill {requests : List PropertyRequest} {attributes : Attributes}
      (h : ∀ key value, attributes.find? key = some value ↔
        ∃ request ∈ requests, request.attributeName = key ∧ answers request = value) :
      Shows answers (.prefill requests) (.attributes attributes)
  | compute (request : PropertyRequest) :
      Shows answers (.compute request) (.value (answers request))
  | call (request : PropertyRequest) :
      Shows answers (.call ⟨request.property.functionName, [.string request.eventName]⟩)
        (.value (answers request))
  | other {call : HostCall}
      (h : ∀ request : PropertyRequest,
        call ≠ ⟨request.property.functionName, [.string request.eventName]⟩) :
      Shows answers (.call call) (.value (.bool false))
  | append (name : String) (t : Timestamp) : Shows answers (.append name t) .nothing

/-! ## Names -/

theorem functionName_injective {p q : Property} (h : p.functionName = q.functionName) : p = q := by
  cases p <;> cases q <;> first | rfl | exact absurd h (by decide)

theorem ofFunctionName?_eq_some_iff {name : String} {property : Property} :
    Property.ofFunctionName? name = some property ↔ name = property.functionName := by
  rw [Property.ofFunctionName?]
  constructor
  · intro h
    have hfound := @List.find?_some _ (fun p : Property => p.functionName == name) _ _ h
    exact (eq_of_beq hfound).symm
  · rintro rfl
    cases property <;> rfl

/-- **A call asks for a property** by its name, with the name of the event as the only
argument. -/
theorem requested?_eq_some_iff {call : HostCall} :
    requested? call = some request ↔
      call = ⟨request.property.functionName, [.string request.eventName]⟩ := by
  rw [requested?]
  constructor
  · intro h
    split at h
    · rename_i property eventName hproperty hargs
      cases h
      rw [← ofFunctionName?_eq_some_iff.mp hproperty, ← hargs]
    · cases h
  · intro h
    cases h
    dsimp only
    rw [ofFunctionName?_eq_some_iff.mpr rfl]

/-- No name of a function has an underscore in it. -/
theorem ne_underscore_of_mem (property : Property) :
    ∀ c ∈ property.functionName.toList, decide (c ≠ '_') = true :=
  List.all_eq_true.mp (by cases property <;> rfl)

/-- **No two requests share an attribute**: its name goes up to the first underscore. -/
theorem attributeName_injective : Function.Injective PropertyRequest.attributeName := by
  rintro ⟨p, name⟩ ⟨q, other⟩ h
  have hchars := congrArg String.toList h
  simp only [PropertyRequest.attributeName, Property.attributePrefix, String.toList_append,
    List.append_assoc] at hchars
  have hspan : ∀ (property : Property) (event : List Char),
      (property.functionName.toList ++ ("_".toList ++ event)).takeWhile (· ≠ '_') =
        property.functionName.toList := by
    intro property event
    rw [List.takeWhile_append_of_pos (ne_underscore_of_mem property)]
    exact List.append_nil _
  have hname : p.functionName = q.functionName := by
    rw [← String.toList_inj, ← hspan p name.toList, hchars, hspan]
  obtain rfl := functionName_injective hname
  have hevent := List.append_cancel_left (List.append_cancel_left hchars)
  rw [String.toList_inj.mp hevent]

/-! ## Asking the history -/

theorem later_cases (t u : Timestamp) :
    (t.later u = u ∧ t ≤ u) ∨ (t.later u = t ∧ u ≤ t) := by
  rw [Timestamp.later]
  split
  · rename_i h
    exact .inl ⟨rfl, h⟩
  · rename_i h
    exact .inr ⟨rfl, Int.le_of_lt (Int.not_le.mp h)⟩

theorem foldl_later_spec (times : List Timestamp) (t : Timestamp) :
    (times.foldl Timestamp.later t = t ∨ times.foldl Timestamp.later t ∈ times) ∧
      t ≤ times.foldl Timestamp.later t ∧ ∀ u ∈ times, u ≤ times.foldl Timestamp.later t := by
  induction times generalizing t with
  | nil => exact ⟨.inl rfl, Int.le_refl _, fun _ h => absurd h List.not_mem_nil⟩
  | cons u rest ih =>
      obtain ⟨hfrom, hle, hall⟩ := ih (t.later u)
      rw [List.foldl_cons]
      rcases later_cases t u with ⟨heq, hlate⟩ | ⟨heq, hlate⟩
      · rw [heq] at hfrom hle hall ⊢
        refine ⟨.inr (List.mem_cons.mpr hfrom), Int.le_trans hlate hle, ?_⟩
        exact List.forall_mem_cons.mpr ⟨hle, hall⟩
      · rw [heq] at hfrom hle hall ⊢
        refine ⟨hfrom.imp id (List.mem_cons_of_mem _), hle, ?_⟩
        exact List.forall_mem_cons.mpr ⟨Int.le_trans hlate hle, hall⟩

/-- The last time is the greatest. -/
theorem isGreatest_last? {h : History} {name : String} {last : Timestamp}
    (hlast : h.last? name = some last) : IsGreatest {t | t ∈ h.times name} last := by
  rw [History.last?] at hlast
  split at hlast
  · cases hlast
  · rename_i t rest htimes
    cases hlast
    obtain ⟨hfrom, hle, hall⟩ := foldl_later_spec rest t
    rw [htimes]
    exact ⟨List.mem_cons.mpr hfrom, List.forall_mem_cons.mpr ⟨hle, hall⟩⟩

theorem times_eq_nil_of_last? {h : History} {name : String} (hlast : h.last? name = none) :
    h.times name = [] := by
  rw [History.last?] at hlast
  split at hlast
  · assumption
  · cases hlast

/-- The resolver once it has asked a question. -/
def asking (r : Resolver) : Resolver :=
  { r with
    history := { r.history with reads := r.history.reads + 1, faults := r.history.faults.tail } }

theorem outcome_asked_of_fault {α : Type} {access : HistoryAccess} (answer : History → α)
    (f : α → Int) (hfault : r.history.fault? access ≠ none) :
    (asked do return f (← History.ask access answer)).outcome r = (.ok 0, r.asking) := by
  obtain ⟨fault, hfault⟩ := Option.ne_none_iff_exists'.mp hfault
  have hask : (History.ask access answer).outcome r.history =
      (.error fault, r.asking.history) := by
    rw [outcome, History.ask, hfault]
    rfl
  rw [asked, outcome_bind, outcome_caught, outcome_on, outcome_bind_error hask]
  rfl

theorem outcome_asked_of_calm {α : Type} {access : HistoryAccess} (answer : History → α)
    (f : α → Int) (hcalm : r.history.fault? access = none) :
    (asked do return f (← History.ask access answer)).outcome r =
      (.ok (f (answer r.history)), r.asking) := by
  have hask : (History.ask access answer).outcome r.history =
      (.ok (answer r.history), r.asking.history) := by
    rw [outcome, History.ask, hcalm]
    rfl
  rw [asked, outcome_bind, outcome_caught, outcome_on, outcome_bind_ok hask]
  rfl

theorem countIn_window {h : History} {name : String} {start : Timestamp} {window : Int}
    (hstart : start.nanos = now.nanos - window) :
    h.countIn name start now = (h.times name).countP fun t =>
      decide (now.nanos - window ≤ t.nanos ∧ t.nanos ≤ now.nanos) := by
  rw [History.countIn, ← hstart]
  refine List.countP_congr fun t _ => ?_
  rw [Bool.and_eq_true, decide_eq_true_eq, decide_eq_true_eq, decide_eq_true_eq]
  exact Iff.rfl

theorem countIn_first (h : History) (name : String) (now : Timestamp) :
    h.countIn name Timestamp.first now =
      (h.times name).countP fun t => decide (t.nanos ≤ now.nanos) := by
  refine List.countP_congr fun t _ => ?_
  rw [decide_eq_true (show Timestamp.first ≤ t from t.inRange.1), Bool.true_and]
  exact Iff.rfl

/-- **A request asks one question**, and the answer of a history that does not fail is what it
says. -/
theorem consult_asks (h : ¬TooEarly r.now request) :
    ∃ (α : Type) (told : History → α) (f : α → Int),
      (consult request).outcome r =
        (asked do return f (← History.ask request.property.access told)).outcome r ∧
      (r.history.fault? request.property.access = none →
        r.history.Says r.now request (f (told r.history))) := by
  have hrecords := r.history.records_times request.eventName
  rw [consult, outcome_bind_ok (outcome_get r)]
  cases hquestion : request.property.question with
  | since measure =>
      have haccess := Property.access_of_since hquestion
      refine ⟨_, fun h => h.last? request.eventName,
        fun last => (last.map (measure r.now)).getD 0, by rw [haccess]; rfl, fun hcalm => ?_⟩
      rw [haccess, History.fault?_eq_none_iff] at hcalm
      dsimp only
      cases hlast : r.history.last? request.eventName with
      | none => exact .never hcalm haccess (times_eq_nil_of_last? hlast ▸ hrecords)
      | some last =>
          have hgreatest := isGreatest_last? hlast
          dsimp only [Option.map_some, Option.getD_some]
          rcases Property.measure_spec hquestion last r.now with
            ⟨hahead, hzero⟩ | ⟨n, hn, hmost⟩
          · rw [hzero]
            exact .ahead hcalm haccess hrecords hgreatest hahead
          · rw [hn]
            exact .last hcalm hrecords hgreatest hmost
  | within window =>
      have hwindow := Property.window_iff.mp hquestion
      obtain ⟨start, hstart, hnanos⟩ := minus?_of_not_tooEarly h hwindow
      dsimp only
      rw [hstart, hwindow.access_eq]
      refine ⟨_, fun h => h.countIn request.eventName start r.now, ofCount, rfl, fun hcalm => ?_⟩
      dsimp only
      rw [countIn_window hnanos, ofCount_eq]
      exact .within (History.fault?_eq_none_iff.mp hcalm) hrecords hwindow
  | ever =>
      have hever := Property.eq_of_ever hquestion
      have haccess : request.property.access = .count := hever ▸ rfl
      rw [haccess]
      refine ⟨_, fun h => h.countIn request.eventName Timestamp.first r.now, ofCount, rfl,
        fun hcalm => ?_⟩
      dsimp only
      rw [countIn_first, ofCount_eq]
      exact .ever (History.fault?_eq_none_iff.mp hcalm) hrecords hever

/-- **The history is asked once, and says what it says.** -/
theorem consult_spec (h : ¬TooEarly r.now request) :
    ∃ n, (consult request).outcome r = (.ok n, r.asking) ∧ r.history.Says r.now request n := by
  obtain ⟨α, told, f, houtcome, hsaid⟩ := consult_asks h
  rw [houtcome]
  by_cases hfault : r.history.fault? request.property.access = none
  · exact ⟨_, outcome_asked_of_calm told f hfault, hsaid hfault⟩
  · exact ⟨0, outcome_asked_of_fault told f hfault,
      .failed (mt History.fault?_eq_none_iff.mpr hfault)⟩

/-- The number fits into 64 bits. -/
def Fits (n : Int) : Prop := -9223372036854775808 ≤ n ∧ n < 9223372036854775808

theorem fits_zero : Fits 0 := ⟨by decide, by decide⟩

theorem fits_count (count : Nat) : Fits (min (count : Int) 9223372036854775807) := by
  rw [Fits]
  omega

/-- Even in minutes all the time there is fits. -/
theorem fits_of_passed {property : Property} {last now : Timestamp} {n : Nat}
    (h : property.Passed last now n) : Fits n := by
  have hnow := now.inRange
  have hlast := last.inRange
  rw [Timestamp.minNanos, Timestamp.maxNanos, Timestamp.nanosPerSecond] at hnow hlast
  rw [Fits]
  cases h with
  | minutes h => omega
  | hours h => omega
  | days h => omega
  | months hafter h =>
      have hmonths := Timestamp.Passes.le ⟨_, hafter, h⟩
      have hfirst := last.monthNumber_range
      have hstop := now.monthNumber_range
      rw [Timestamp.firstMonth, Timestamp.endMonth] at hfirst hstop
      omega

/-- Every answer fits. -/
theorem fits_of_said {h : History} {n : Int} (hsaid : h.Says now request n) : Fits n := by
  cases hsaid with
  | failed => exact fits_zero
  | never => exact fits_zero
  | ahead => exact fits_zero
  | last _ _ _ hmost => exact fits_of_passed hmost.1
  | within => exact fits_count _
  | ever => exact fits_count _

/-! ## Answering a request -/

/-- The requests that are answered. -/
def answered (r : Resolver) : Finset PropertyRequest := (r.resolved.map Prod.fst).toFinset

theorem mem_answered : request ∈ r.answered ↔ ∃ value, r.known? request = some value := by
  rw [answered, List.mem_toFinset, known?, ← Option.isSome_iff_exists, List.lookup_isSome_iff]
  constructor
  · intro h
    obtain ⟨entry, hentry, rfl⟩ := List.mem_map.mp h
    exact ⟨entry, hentry, beq_self_eq_true _⟩
  · rintro ⟨entry, hentry, hsame⟩
    rw [eq_of_beq hsame]
    exact List.mem_map_of_mem hentry

theorem known?_eq_none_iff : r.known? request = none ↔ request ∉ r.answered := by
  rw [mem_answered, ← Option.isSome_iff_exists, Option.not_isSome_iff_eq_none]

/-- **The resolver has answered some requests more**, each at the cost of one question, and
gives the answers that it gave before. -/
structure Visited (requests : List PropertyRequest) (r t : Resolver) : Prop where
  now : t.now = r.now
  answered : t.answered = r.answered ∪ requests.toFinset
  reads : t.history.reads + r.answered.card = r.history.reads + t.answered.card
  kept : ∀ request value, r.known? request = some value → t.known? request = some value

theorem visited_nil (r : Resolver) : Visited [] r r :=
  ⟨rfl, (Finset.union_empty _).symm, rfl, fun _ _ h => h⟩

theorem Visited.trans {first next : List PropertyRequest} (ht : Visited first r t)
    (hu : Visited next t u) : Visited (first ++ next) r u := by
  refine ⟨hu.now.trans ht.now, ?_, ?_, fun request value h => hu.kept _ _ (ht.kept _ _ h)⟩
  · rw [hu.answered, ht.answered, List.toFinset_append, Finset.union_assoc]
  · have hfirst := ht.reads
    have hnext := hu.reads
    omega

theorem Visited.known {requests : List PropertyRequest} (ht : Visited requests r t)
    (h : request ∈ requests) : ∃ value, t.known? request = some value := by
  rw [← mem_answered, ht.answered, Finset.mem_union, List.mem_toFinset]
  exact .inr h

theorem outcome_answer_of_known {value : Value} (h : r.known? request = some value) :
    (answer request).outcome r = (.ok value, r) := by
  rw [answer, outcome_bind_ok (outcome_get r), h]
  rfl

/-- **A request that is not answered yet is answered with what the history says now.** -/
theorem outcome_answer_of_unknown (h : request ∉ r.answered)
    (hwindow : ¬TooEarly r.now request) :
    ∃ n : Int64, r.history.Says r.now request n.toInt ∧
      (answer request).outcome r =
        (.ok (.int n), { r.asking with resolved := (request, .int n) :: r.resolved }) := by
  obtain ⟨n, hconsult, hsaid⟩ := consult_spec hwindow
  obtain ⟨hlow, hhigh⟩ := fits_of_said hsaid
  refine ⟨Int64.ofInt n, ?_, ?_⟩
  · rw [Int64.toInt_ofInt_of_le (by omega) (by omega)]
    exact hsaid
  · rw [answer, outcome_bind_ok (outcome_get r), known?_eq_none_iff.mpr h]
    dsimp only
    rw [outcome_bind_ok hconsult]
    rfl

/-- One request: it is answered, and known from then on. -/
theorem visited_answer (request : PropertyRequest) (hlate : Late r.now) :
    ∃ value t, (answer request).outcome r = (.ok value, t) ∧ Visited [request] r t ∧
      t.known? request = some value := by
  by_cases h : request ∈ r.answered
  · obtain ⟨value, hvalue⟩ := mem_answered.mp h
    refine ⟨value, r, outcome_answer_of_known hvalue, ⟨rfl, ?_, rfl, fun _ _ h => h⟩, hvalue⟩
    rw [List.toFinset_cons, List.toFinset_nil, Finset.union_insert, Finset.union_empty,
      Finset.insert_eq_of_mem h]
  · obtain ⟨n, -, houtcome⟩ := outcome_answer_of_unknown h (not_tooEarly_of_late hlate)
    refine ⟨.int n, _, houtcome, ⟨rfl, ?_, ?_, ?_⟩, ?_⟩
    · rw [answered, List.map_cons, List.toFinset_cons, List.toFinset_cons, List.toFinset_nil,
        Finset.union_insert, Finset.union_empty]
      rfl
    · have hcard : (insert request r.answered).card = r.answered.card + 1 :=
        Finset.card_insert_of_notMem h
      have hanswered : ({ r.asking with resolved := (request, .int n) :: r.resolved } :
          Resolver).answered = insert request r.answered := List.toFinset_cons
      rw [hanswered, hcard]
      show r.history.reads + 1 + r.answered.card = _
      omega
    · intro other value hvalue
      have hne : other ≠ request := fun heq => h (heq ▸ mem_answered.mpr ⟨value, hvalue⟩)
      rw [known?, List.lookup_cons, beq_false_of_ne hne]
      exact hvalue
    · rw [known?, List.lookup_cons, beq_self_eq_true]

theorem visited_visit (requests : List PropertyRequest) (hlate : Late r.now) :
    Visited requests r (visit requests r) := by
  induction requests generalizing r with
  | nil => exact visited_nil r
  | cons request rest ih =>
      obtain ⟨value, t, houtcome, hvisited, -⟩ := visited_answer request hlate
      rw [visit, houtcome]
      exact hvisited.trans (ih (hvisited.now ▸ hlate))

/-- **A request is answered with what the history says when its turn comes first.** -/
theorem visit_first {requests : List PropertyRequest} (hmem : request ∈ requests)
    (hnew : request ∉ r.answered) (hlate : Late r.now) :
    ∃ n : Int64,
      (visit (requests.takeWhile (· ≠ request)) r).history.Says r.now request n.toInt ∧
      (visit requests r).known? request = some (.int n) := by
  induction requests generalizing r with
  | nil => exact absurd hmem List.not_mem_nil
  | cons other rest ih =>
      obtain ⟨value, t, houtcome, hvisited, hvalue⟩ := visited_answer other hlate
      by_cases hsame : other = request
      · subst hsame
        obtain ⟨n, hsaid, hfirst⟩ :=
          outcome_answer_of_unknown hnew (not_tooEarly_of_late hlate)
        rw [houtcome] at hfirst
        cases hfirst
        rw [List.takeWhile_cons_of_neg (by simp)]
        refine ⟨n, hsaid, ?_⟩
        rw [visit, houtcome]
        exact (visited_visit rest (hvisited.now ▸ hlate)).kept _ _ hvalue
      · have hnew' : request ∉ t.answered := by
          rw [hvisited.answered, Finset.mem_union, List.mem_toFinset, List.mem_singleton, not_or]
          exact ⟨hnew, Ne.symm hsame⟩
        have hrest := ih (List.mem_of_ne_of_mem (Ne.symm hsame) hmem) hnew' (hvisited.now ▸ hlate)
        rw [List.takeWhile_cons_of_pos (by simpa using hsame), visit, visit, houtcome]
        rwa [hvisited.now] at hrest

theorem visit_append (first next : List PropertyRequest) (r : Resolver) :
    visit (first ++ next) r = visit next (visit first r) := by
  induction first generalizing r with
  | nil => rfl
  | cons request rest ih => exact ih _

/-- What was known before is known unchanged. -/
theorem Visited.known?_iff {requests : List PropertyRequest} (ht : Visited requests r t)
    {value : Value} (h : request ∈ r.answered) :
    r.known? request = some value ↔ t.known? request = some value := by
  obtain ⟨found, hfound⟩ := mem_answered.mp h
  rw [hfound, ht.kept _ _ hfound]

/-- **Attributes show what the resolver knows afterwards**, each answer under the name of its
request. -/
theorem outcome_attributes (requests : List PropertyRequest) (hlate : Late r.now) :
    ∃ shown, (attributes requests).outcome r = (.ok shown, visit requests r) ∧
      ∀ key value, shown.find? key = some value ↔ ∃ request ∈ requests,
        request.attributeName = key ∧ (visit requests r).known? request = some value := by
  -- The last request is shown over those before it, and no other has its name.
  induction requests using List.reverseRecOn with
  | nil =>
      refine ⟨∅, rfl, fun key value => ?_⟩
      rw [Dict.find?_empty]
      exact ⟨nofun, fun ⟨_, h, _⟩ => absurd h List.not_mem_nil⟩
  | append_singleton requests request ih =>
      obtain ⟨shown, hbefore, hshown⟩ := ih
      have hvisited := visited_visit requests hlate
      obtain ⟨found, t, houtcome, hvisited', hfound⟩ :=
        visited_answer request (show Late (visit requests r).now from hvisited.now ▸ hlate)
      have ht : visit (requests ++ [request]) r = t := by
        rw [visit_append, visit, houtcome]
        rfl
      refine ⟨shown.insert request.attributeName found, ?_, fun key value => ?_⟩
      · rw [attributes] at hbefore ⊢
        rw [List.foldlM_append, outcome_bind_ok hbefore, List.foldlM_cons, outcome_bind,
          outcome_bind_ok houtcome, ht]
        rfl
      rw [Dict.find?_insert, ht]
      by_cases hkey : request.attributeName = key
      · rw [if_pos hkey, ← hfound]
        constructor
        · exact fun hvalue => ⟨request, List.mem_append_right _ List.mem_cons_self, hkey, hvalue⟩
        · rintro ⟨other, -, hname, hvalue⟩
          rwa [attributeName_injective (hname.trans hkey.symm)] at hvalue
      · rw [if_neg hkey, hshown]
        have hknown : ∀ other ∈ requests, ((visit requests r).known? other = some value ↔
            t.known? other = some value) :=
          fun other hother => hvisited'.known?_iff (mem_answered.mpr (hvisited.known hother))
        constructor
        · rintro ⟨other, hother, hname, hvalue⟩
          exact ⟨other, List.mem_append_left _ hother, hname, (hknown other hother).mp hvalue⟩
        · rintro ⟨other, hother, hname, hvalue⟩
          rcases List.mem_append.mp hother with hother | hother
          · exact ⟨other, hother, hname, (hknown other hother).mpr hvalue⟩
          · rw [List.mem_singleton.mp hother] at hname
            exact absurd hname hkey

/-! ## Using a resolver -/

/-- The answers are those that the resolver knows. -/
def Knows (r : Resolver) (answers : PropertyRequest → Value) : Prop :=
  ∀ request value, r.known? request = some value → answers request = value

theorem Knows.of_visited {answers : PropertyRequest → Value} {requests : List PropertyRequest}
    (h : t.Knows answers) (ht : Visited requests r t) : r.Knows answers :=
  fun request value hvalue => h request value (ht.kept request value hvalue)

/-- **One use** answers its requests, and shows the answers. -/
theorem use_spec (use : Use) (hlate : Late r.now) :
    ∃ shown t, use.run.outcome r = (.ok shown, t) ∧ Visited use.requests r t ∧
      (use.requests ≠ [] → t = visit use.requests r) ∧
      ∀ answers, t.Knows answers → Shows answers use shown := by
  cases use with
  | prefill requests =>
      obtain ⟨shown, houtcome, hshown⟩ := outcome_attributes requests hlate
      have hvisited := visited_visit requests hlate
      refine ⟨_, _, outcome_bind_ok houtcome, hvisited, fun _ => rfl, fun answers hknows => ?_⟩
      refine .prefill fun key value => (hshown key value).trans ?_
      refine exists_congr fun request => and_congr_right fun hmem => and_congr_right fun _ => ?_
      obtain ⟨found, hfound⟩ := hvisited.known hmem
      rw [hknows request found hfound, hfound, Option.some.injEq]
  | compute request =>
      obtain ⟨value, t, houtcome, hvisited, hvalue⟩ := visited_answer request hlate
      refine ⟨_, _, outcome_bind_ok houtcome, hvisited, fun _ => ?_, fun answers hknows => ?_⟩
      · exact (congrArg Prod.snd houtcome).symm
      · rw [← hknows request value hvalue]
        exact .compute request
  | call call =>
      cases hrequest : requested? call with
      | none =>
          have houtcome : (answerCall call).outcome r = (.ok (.bool false), r) := by
            rw [answerCall, hrequest]
            rfl
          refine ⟨_, _, outcome_bind_ok houtcome, ?_, ?_, fun answers _ => .other ?_⟩
          · rw [Use.requests, hrequest]
            exact visited_nil r
          · rw [Use.requests, hrequest]
            exact fun h => absurd rfl h
          · intro request hcall
            rw [requested?_eq_some_iff.mpr hcall] at hrequest
            cases hrequest
      | some request =>
          obtain ⟨value, t, houtcome, hvisited, hvalue⟩ := visited_answer request hlate
          have hcall : (answerCall call).outcome r = (.ok value, t) := by
            rw [answerCall, hrequest]
            exact houtcome
          rw [Use.requests, hrequest]
          refine ⟨_, _, outcome_bind_ok hcall, hvisited, fun _ => ?_, fun answers hknows => ?_⟩
          · exact (congrArg Prod.snd houtcome).symm
          · rw [← hknows request value hvalue, requested?_eq_some_iff.mp hrequest]
            exact .call request
  | append name t =>
      have happend : ∃ result h, (History.append name t).outcome r.history = (result, h) ∧
          h.reads = r.history.reads := by
        rw [outcome, History.append]
        cases r.history.fault? .append with
        | none => exact ⟨_, _, rfl, rfl⟩
        | some fault => exact ⟨_, _, rfl, rfl⟩
      obtain ⟨result, h, houtcome, hreads⟩ := happend
      refine ⟨.nothing, { r with history := h }, ?_, ⟨rfl, (Finset.union_empty _).symm, ?_, ?_⟩,
        fun hne => absurd rfl hne, fun answers _ => .append name t⟩
      · rw [Use.run, outcome_bind, outcome_caught, outcome_on, houtcome]
        rfl
      · exact congrArg (· + _) hreads
      · exact fun _ _ h => h

/-- **Many uses** answer their requests, each once, and show these answers; a request that was
new is answered with what the history says when it is first made. -/
theorem run_spec (uses : List Use) (hlate : Late r.now) :
    ∃ shown t, (run uses).outcome r = (.ok shown, t) ∧ Visited (requested uses) r t ∧
      (∀ answers, t.Knows answers → List.Forall₂ (Shows answers) uses shown) ∧
      ∀ request ∈ requested uses, request ∉ r.answered → ∃ moment, ∃ n : Int64,
        firstAsked? request uses r = some moment ∧ moment.Says r.now request n.toInt ∧
        t.known? request = some (.int n) := by
  induction uses generalizing r with
  | nil => exact ⟨[], r, rfl, visited_nil r, fun _ _ => .nil, fun _ h => absurd h List.not_mem_nil⟩
  | cons use rest ih =>
      obtain ⟨shown, t, huse, hvisited, hvisit, hshown⟩ := use_spec use hlate
      obtain ⟨others, u, hrest, hvisited', hshown', hfirst⟩ := ih (hvisited.now ▸ hlate)
      refine ⟨shown :: others, u, ?_, hvisited.trans hvisited', ?_, ?_⟩
      · rw [run, outcome_bind_ok huse, outcome_bind_ok hrest]
        rfl
      · exact fun answers hknows =>
          .cons (hshown answers (hknows.of_visited hvisited')) (hshown' answers hknows)
      · intro request hmem hnew
        rw [firstAsked?]
        by_cases hhere : request ∈ use.requests
        · rw [if_pos hhere]
          obtain ⟨n, hsaid, hknown⟩ := visit_first hhere hnew hlate
          rw [← hvisit (List.ne_nil_of_mem hhere)] at hknown
          exact ⟨_, n, rfl, hsaid, hvisited'.kept _ _ hknown⟩
        · -- What this use does not ask for is still new to the rest.
          rw [if_neg hhere, huse, ← hvisited.now]
          refine hfirst request ((List.mem_append.mp hmem).resolve_left hhere) ?_
          rw [hvisited.answered, Finset.mem_union, List.mem_toFinset, not_or]
          exact ⟨hnew, hhere⟩

/-- **One question for each property.**  However a resolver is used, whatever is appended
meanwhile, and wherever the history fails: it asks as many questions as there are different
requests, and all uses show one answer to each request, which is what the history says when the
request is first made. -/
theorem one_question_each (history : History) (now : Timestamp) (uses : List Use)
    (hlate : Timestamp.minNanos + 30 * Timestamp.nanosPerDay ≤ now.nanos) :
    (∃ answers shown final, (run uses).outcome (.new history now) = (.ok shown, final) ∧
      final.history.reads = history.reads + (requested uses).toFinset.card ∧
      List.Forall₂ (Shows answers) uses shown ∧
      ∀ request ∈ requested uses, ∃ moment, ∃ n : Int64,
        firstAsked? request uses (.new history now) = some moment ∧
        moment.Says now request n.toInt ∧ answers request = .int n) ∧
    Function.Injective PropertyRequest.attributeName := by
  refine ⟨?_, attributeName_injective⟩
  obtain ⟨shown, final, houtcome, hvisited, hshown, hfirst⟩ :=
    @run_spec (.new history now) uses hlate
  have hknows : final.Knows fun request => (final.known? request).getD (.bool false) := by
    intro request value hvalue
    dsimp only
    rw [hvalue]
    rfl
  refine ⟨_, shown, final, houtcome, ?_, hshown _ hknows, fun request hmem => ?_⟩
  · have hanswered : final.answered = (requested uses).toFinset := hvisited.answered.trans
      (Finset.empty_union _)
    rw [← hanswered]
    exact hvisited.reads
  · obtain ⟨moment, n, hmoment, hsaid, hvalue⟩ := hfirst request hmem (Finset.notMem_empty _)
    exact ⟨moment, n, hmoment, hsaid, hknows _ _ hvalue⟩

/-- A history without records whose first access fails. -/
def failingOnce : History :=
  { History.empty with faults := ⟨fun n _ => if n = 0 then some "offline" else none⟩ }

/-- A question that fails, a record that comes later, and more uses of the same property. -/
def signupUses : List Use :=
  [.compute ⟨.daysSince, "signup"⟩, .append "signup" .epoch,
    .call ⟨"daysSince", [.string "signup"]⟩, .call ⟨"yearsSince", [.string "signup"]⟩,
    .prefill [⟨.placementsInDay, "signup"⟩, ⟨.daysSince, "signup"⟩]]

/-- Four requests, two questions; the property whose question failed is not asked again. -/
theorem signupUses_ask_twice :
    (∃ answers shown final,
      (run signupUses).outcome (.new failingOnce .epoch) = (.ok shown, final) ∧
      final.history.reads = 0 + 2 ∧ List.Forall₂ (Shows answers) signupUses shown ∧
      ∀ request ∈ requested signupUses, ∃ moment, ∃ n : Int64,
        firstAsked? request signupUses (.new failingOnce .epoch) = some moment ∧
        moment.Says .epoch request n.toInt ∧ answers request = .int n) ∧
    Function.Injective PropertyRequest.attributeName :=
  one_question_each failingOnce .epoch signupUses (by decide)

end Resolver
end Placement
