import Mathlib.Logic.Relation
import Placement.Proofs.Dispatch.Traffic
/-! # Every caller is somewhere, once

In every state that a dispatcher can reach, each caller that has come is in exactly one
place: it was answered or dropped, it waits in one entry of the table, or its command is on
the queue or with the worker (`Accounted`).
-/
namespace Placement
namespace Dispatcher
open Attempt
variable {d : Dispatcher} {job : Job} {reply : Reply} {engine : Engine} {command : Command}

/-! ## What the steps change -/

theorem isRunning_of_busy (h : d.worker = .busy job) : d.isRunning = true := by
  rw [isRunning, h]

theorem outstanding_of_busy (h : d.worker = .busy job) : d.outstanding = job :: d.queue := by
  rw [outstanding, running, h]
  rfl

theorem outstanding_of_idle (h : d.worker = .idle) : d.outstanding = d.queue := by
  rw [outstanding, running, h]
  rfl

/-- To take a job only moves it. -/
theorem take_spec : d.take.outstanding = d.outstanding ∧ d.take.isRunning = d.isRunning ∧
    d.take.inFlight = d.inFlight ∧ d.take.answers = d.answers ∧
    d.take.nextCaller = d.nextCaller ∧ d.take.engine = d.engine := by
  rw [take]
  split
  · rename_i hidle hqueue
    refine ⟨?_, ?_, rfl, rfl, rfl, rfl⟩
    · rw [outstanding_of_idle hidle, hqueue]
      rfl
    · rw [isRunning, isRunning, hidle]
  · exact ⟨rfl, rfl, rfl, rfl, rfl, rfl⟩

theorem send_of_running (h : d.isRunning = true) :
    d.send job = some { d with queue := d.queue ++ [job] } := by
  rw [send, if_pos h]

theorem send_of_ended (h : d.isRunning = false) : d.send job = none := by
  rw [send, if_neg (Bool.eq_false_iff.mp h)]

theorem ask_of_running (h : d.isRunning = true) :
    d.ask command = { d with
      nextCaller := d.nextCaller + 1, queue := d.queue ++ [.single d.nextCaller command] } := by
  rw [ask, send_of_running (d := { d with nextCaller := d.nextCaller + 1 }) h]

theorem ask_of_ended (h : d.isRunning = false) :
    d.ask command = { d with nextCaller := d.nextCaller + 1 }.drop [d.nextCaller] := by
  rw [ask, send_of_ended (d := { d with nextCaller := d.nextCaller + 1 }) h]

theorem submit_of_running {entered : Dispatcher} (henter : d.enter event = (some job, entered))
    (h : entered.isRunning = true) :
    d.submit event = { entered with queue := entered.queue ++ [job] } := by
  rw [submit, henter]
  dsimp only
  rw [send_of_running h]

theorem submit_of_ended {entered : Dispatcher} (henter : d.enter event = (some job, entered))
    (h : entered.isRunning = false) :
    d.submit event = entered.withdraw (.ofEvent event entered.rules.generation) := by
  rw [submit, henter]
  dsimp only
  rw [send_of_ended h]

theorem finish_of_busy (hbusy : d.worker = .busy job)
    (hrun : job.run.outcome d.engine = (.ok reply, engine)) :
    d.finish = { d.reply (job.callers d.inFlight) reply with
      engine, worker := .idle, inFlight := job.leave d.inFlight } := by
  have hresult : job.run d.engine = (.ok reply, engine) := hrun
  rw [finish, hbusy]
  dsimp only
  rw [hresult]

theorem clear_of_ended (h : d.isRunning = false) :
    d.clear = { d.drop d.inFlight.callers with inFlight := [] } := by
  rw [clear, if_neg (Bool.eq_false_iff.mp h)]

@[simp] theorem answered_drop (callers : List Caller) :
    (d.drop callers).answered = d.answered ++ callers := by
  simp [answered, drop, Function.comp_def]

@[simp] theorem answered_reply (callers : List Caller) :
    (d.reply callers reply).answered = d.answered ++ callers := by
  simp [answered, Dispatcher.reply, Function.comp_def]

/-! ## Where the callers are -/

/-- **Every caller that has come is in exactly one place**, and no key is in flight twice. -/
structure Accounted (d : Dispatcher) : Prop where
  keys : d.inFlight.keys.Nodup
  callers : (d.answered ++ d.inFlight.callers ++ d.asking).Perm (List.range d.nextCaller)

namespace Accounted

theorem nodup (h : Accounted d) : (d.answered ++ d.inFlight.callers ++ d.asking).Nodup :=
  h.callers.nodup_iff.mpr List.nodup_range

theorem lt_of_mem (h : Accounted d) {caller : Caller}
    (hmem : caller ∈ d.answered ++ d.inFlight.callers ++ d.asking) : caller < d.nextCaller :=
  List.mem_range.mp (h.callers.mem_iff.mp hmem)

/-- Another dispatcher with the same callers in the same places. -/
theorem congr {e : Dispatcher} (h : Accounted d) (hanswers : e.answers = d.answers)
    (hinFlight : e.inFlight = d.inFlight) (hasking : e.asking = d.asking)
    (hnext : e.nextCaller = d.nextCaller) : Accounted e where
  keys := hinFlight ▸ h.keys
  callers := by
    rw [answered, hanswers, hinFlight, hasking, hnext]
    exact h.callers

/-- The number of the next caller was never given. -/
theorem next {e : Dispatcher} (h : Accounted d) (hkeys : e.inFlight.keys.Nodup)
    (hcallers : (e.answered ++ e.inFlight.callers ++ e.asking).Perm
      (d.answered ++ d.inFlight.callers ++ d.asking ++ [d.nextCaller]))
    (hnext : e.nextCaller = d.nextCaller + 1) : Accounted e where
  keys := hkeys
  callers := by
    rw [hnext, List.range_succ]
    exact hcallers.trans (h.callers.append_right _)

theorem enterUnder (h : Accounted d) (rules : RuleSet) (event : Event) :
    Accounted (d.enterUnder rules event).2 := by
  refine h.next (Waitlist.nodup_keys_join h.keys) ?_ rfl
  refine List.perm_iff_count.mpr fun caller => ?_
  have hperm : (d.inFlight.join (.ofEvent event rules.generation) d.nextCaller).callers.Perm
      (d.inFlight.callers ++ [d.nextCaller]) := Waitlist.callers_join
  have hjoin := hperm.count_eq caller
  simp only [List.count_append] at hjoin ⊢
  show d.answered.count caller + (d.inFlight.join _ d.nextCaller).callers.count caller +
    d.asking.count caller = _
  omega

/-- Some callers that waited are answered or dropped. -/
theorem settle {e : Dispatcher} {settled : List Caller} (h : Accounted d)
    (hkeys : e.inFlight.keys.Nodup) (hanswered : e.answered = d.answered ++ settled)
    (hsettled : (settled ++ e.inFlight.callers ++ e.asking).Perm
      (d.inFlight.callers ++ d.asking))
    (hnext : e.nextCaller = d.nextCaller) : Accounted e where
  keys := hkeys
  callers := by
    have hmoved := hsettled.append_left d.answered
    simp only [← List.append_assoc] at hmoved
    rw [hanswered, hnext]
    exact hmoved.trans h.callers

theorem withdraw (h : Accounted d) (key : RequestKey) : Accounted (d.withdraw key) :=
  h.settle (Waitlist.nodup_keys_remove h.keys) (answered_drop _)
    ((Waitlist.callers_remove h.keys).append_right _) rfl

theorem ask (h : Accounted d) (hended : d.isRunning = false → d.outstanding = [])
    (command : Command) : Accounted (d.ask command) := by
  cases hr : d.isRunning with
  | true =>
      rw [ask_of_running hr]
      refine h.next h.keys (List.Perm.of_eq ?_) rfl
      simp [asking, outstanding, running, answered, List.filterMap_append, Job.caller?]
  | false =>
      have hnone : d.asking = [] := by
        rw [asking, hended hr]
        rfl
      rw [ask_of_ended hr]
      refine h.next h.keys ?_ rfl
      rw [answered_drop]
      show (d.answered ++ [d.nextCaller] ++ d.inFlight.callers ++ d.asking).Perm _
      rw [hnone, List.append_nil, List.append_nil, List.append_assoc, List.append_assoc]
      exact List.perm_append_comm.append_left _

theorem finish (h : Accounted d) (hbusy : d.worker = .busy job)
    (hrun : job.run.outcome d.engine = (.ok reply, engine)) : Accounted d.finish := by
  have hasking : d.asking = (job :: d.queue).filterMap Job.caller? := by
    rw [asking, outstanding_of_busy hbusy]
  rw [finish_of_busy hbusy hrun]
  cases job with
  | shared key event rules =>
      refine h.settle (Waitlist.nodup_keys_remove h.keys) (answered_reply _) ?_ rfl
      rw [hasking]
      exact (Waitlist.callers_remove h.keys).append_right _
  | single caller command =>
      refine h.settle h.keys (answered_reply _) ?_ rfl
      rw [hasking]
      exact List.perm_middle.symm

theorem crash (h : Accounted d) (hbusy : d.worker = .busy job) (engine : Engine) :
    Accounted ({ d with engine }.crash job) := by
  have hasking : d.asking = (job :: d.queue).filterMap Job.caller? := by
    rw [asking, outstanding_of_busy hbusy]
  refine h.settle h.keys (answered_drop _) ?_ rfl
  rw [hasking]
  exact (List.append_nil _).symm ▸ List.perm_append_comm

theorem clear (h : Accounted d) (hended : d.isRunning = false) : Accounted d.clear := by
  rw [clear_of_ended hended]
  refine h.settle List.nodup_nil (answered_drop _) ?_ rfl
  exact List.Perm.of_eq (congrArg (· ++ d.asking) (List.append_nil _))

end Accounted
end Dispatcher

namespace Traffic
open Dispatcher
variable {t u : Traffic} {request : Request} {others : List Request} {command : Command}

theorem send_of_running (h : t.dispatcher.isRunning = true) :
    t.send request others =
      { t with
        dispatcher := { t.dispatcher with queue := t.dispatcher.queue ++ [request.job] }
        unsent := others
        sent := t.sent ++ [(request.caller, request.job)] } := by
  rw [send, Dispatcher.send_of_running h]

theorem send_of_ended (h : t.dispatcher.isRunning = false) :
    t.send request others = { t with unsent := others, refused := request :: t.refused } := by
  rw [send, Dispatcher.send_of_ended h]

theorem ask_of_running (h : t.dispatcher.isRunning = true) :
    t.ask command =
      { t with
        dispatcher := { t.dispatcher with
          nextCaller := t.dispatcher.nextCaller + 1
          queue := t.dispatcher.queue ++ [.single t.dispatcher.nextCaller command] }
        sent := t.sent ++
          [(t.dispatcher.nextCaller, .single t.dispatcher.nextCaller command)] } := by
  rw [ask, Dispatcher.ask_of_running h, if_pos h]

theorem ask_of_ended (h : t.dispatcher.isRunning = false) :
    t.ask command =
      { t with
        dispatcher := { t.dispatcher with nextCaller := t.dispatcher.nextCaller + 1 }.drop
          [t.dispatcher.nextCaller] } := by
  rw [ask, Dispatcher.ask_of_ended h, if_neg (Bool.eq_false_iff.mp h)]

/-! ## What is on the queue -/

/-- **What was sent and is not done is on the queue or with the worker**, in the order in
which it was sent, as long as the worker runs; once it has ended nothing is. -/
structure Queued (t : Traffic) : Prop where
  order : t.done.map Completion.job <+: t.sent.map Prod.snd
  sent_eq : t.dispatcher.isRunning = true →
    t.sent.map Prod.snd = t.done.map Completion.job ++ t.dispatcher.outstanding
  ended : t.dispatcher.isRunning = false → t.dispatcher.outstanding = []
  refused : t.dispatcher.isRunning = true → t.refused = []
  cleared : t.cleared = true → t.dispatcher.isRunning = false

theorem queued_start (engine : Engine) (rules : RuleSet) : Queued (start engine rules) :=
  ⟨List.nil_prefix, fun _ => rfl, nofun, fun _ => rfl, nofun⟩

/-- One more job is put on the queue of a worker that runs. -/
theorem Queued.push (h : Queued t) (hr : t.dispatcher.isRunning = true) {caller : Caller}
    {job : Job} {d : Dispatcher} (hworker : d.worker = t.dispatcher.worker)
    (hqueue : d.queue = t.dispatcher.queue ++ [job]) :
    Queued { t with dispatcher := d, unsent := others, sent := t.sent ++ [(caller, job)] } := by
  have hrunning : d.isRunning = true := by rw [isRunning, hworker]; exact hr
  have hpending : t.sent.map Prod.snd ++ [job] =
      t.done.map Completion.job ++ d.outstanding := by
    rw [h.sent_eq hr, outstanding, outstanding, running, running, hworker, hqueue]
    simp only [List.append_assoc]
  refine ⟨?_, ?_, ?_, ?_, ?_⟩
  · rw [List.map_append]
    exact h.order.trans (List.prefix_append _ _)
  · intro _
    rw [List.map_append]
    exact hpending
  · exact fun he => Bool.noConfusion (hrunning.symm.trans he)
  · exact fun _ => h.refused hr
  · exact fun hc => Bool.noConfusion (hr.symm.trans (h.cleared hc))

/-- The job that is finished was the first of those that were sent and not done. -/
theorem Queued.finish (h : Queued t) {job : Job} {reply : Reply} {engine : Engine}
    (hbusy : t.dispatcher.worker = .busy job)
    (hrun : job.run.outcome t.dispatcher.engine = (.ok reply, engine)) :
    Queued (t.finish job reply) := by
  have hr := isRunning_of_busy hbusy
  have hpending := h.sent_eq hr
  rw [outstanding_of_busy hbusy] at hpending
  have hnext : t.sent.map Prod.snd =
      (t.done.map Completion.job ++ [job]) ++ t.dispatcher.queue := by
    rw [hpending, List.append_assoc, List.singleton_append]
  have hfinish := finish_of_busy hbusy hrun
  refine ⟨?_, ?_, ?_, fun _ => h.refused hr, ?_⟩
  · show (t.done ++ [_]).map Completion.job <+: t.sent.map Prod.snd
    rw [List.map_append, hnext]
    exact List.prefix_append _ _
  · intro _
    show t.sent.map Prod.snd =
      (t.done ++ [_]).map Completion.job ++ t.dispatcher.finish.outstanding
    rw [List.map_append, hnext, hfinish, outstanding_of_idle rfl]
    rfl
  · intro he
    rw [Traffic.finish, hfinish] at he
    cases he
  · exact fun hc => Bool.noConfusion (hr.symm.trans (h.cleared hc))

theorem Queued.step (h : Queued t) (hs : Step t u) : Queued u := by
  cases hs with
  | enter event rules => exact ⟨h.order, h.sent_eq, h.ended, h.refused, h.cleared⟩
  | send hunsent =>
      cases hr : t.dispatcher.isRunning with
      | true =>
          rw [send_of_running hr]
          exact h.push hr rfl rfl
      | false =>
          rw [send_of_ended hr]
          exact ⟨h.order, h.sent_eq, h.ended,
            fun he => Bool.noConfusion (hr.symm.trans he), h.cleared⟩
  | withdraw hrefused =>
      refine ⟨h.order, h.sent_eq, h.ended, fun hr => ?_, h.cleared⟩
      rw [h.refused hr] at hrefused
      exact absurd hrefused.length_eq (by simp)
  | ask command =>
      cases hr : t.dispatcher.isRunning with
      | true =>
          rw [ask_of_running hr]
          exact h.push hr rfl rfl
      | false =>
          rw [ask_of_ended hr]
          exact ⟨h.order, h.sent_eq, h.ended, h.refused, h.cleared⟩
  | take =>
      obtain ⟨houtstanding, hrunning, -⟩ := take_spec (d := t.dispatcher)
      refine ⟨h.order, fun hr => ?_, fun hr => ?_, fun hr => h.refused (hrunning ▸ hr),
        fun hc => hrunning.trans (h.cleared hc)⟩
      · exact (h.sent_eq (hrunning ▸ hr)).trans (by rw [take, houtstanding])
      · exact houtstanding.trans (h.ended (hrunning ▸ hr))
  | finish hbusy hrun => exact h.finish hbusy hrun
  | fail hbusy engine =>
      exact ⟨h.order, nofun, fun _ => rfl, nofun, fun _ => rfl⟩
  | close => exact ⟨h.order, h.sent_eq, h.ended, h.refused, h.cleared⟩
  | stop hidle hqueue hclosed => exact ⟨h.order, nofun, fun _ => hqueue, nofun, fun _ => rfl⟩
  | clear hended hcleared =>
      have hclear := clear_of_ended hended
      have hr : t.clear.dispatcher.isRunning = false := by
        rw [clear, hclear]
        exact hended
      have hnot := Bool.eq_false_iff.mp hr
      refine ⟨h.order, fun he => absurd he hnot, fun _ => ?_, fun he => absurd he hnot,
        fun _ => hr⟩
      rw [clear, hclear]
      exact h.ended hended

theorem accounted_start (engine : Engine) (rules : RuleSet) :
    Accounted (start engine rules).dispatcher :=
  ⟨List.nodup_nil, List.Perm.refl []⟩

/-- **Each step leaves every caller in exactly one place.** -/
theorem accounted_step (hqueued : Queued t) (h : Accounted t.dispatcher) (hs : Step t u) :
    Accounted u.dispatcher := by
  cases hs with
  | enter event rules => exact h.enterUnder rules event
  | send hunsent =>
      cases hr : t.dispatcher.isRunning with
      | true =>
          rw [send_of_running hr]
          refine h.congr rfl rfl ?_ rfl
          simp [asking, outstanding, running, Request.job, Job.caller?]
      | false =>
          rw [send_of_ended hr]
          exact h
  | withdraw hrefused => exact h.withdraw _
  | ask command => exact h.ask hqueued.ended command
  | take =>
      obtain ⟨houtstanding, -, hinFlight, hanswers, hnext, -⟩ := take_spec (d := t.dispatcher)
      exact h.congr hanswers hinFlight (congrArg (List.filterMap Job.caller?) houtstanding) hnext
  | finish hbusy hrun => exact h.finish hbusy hrun
  | fail hbusy engine => exact h.crash hbusy engine
  | close => exact h
  | stop hidle hqueue hclosed =>
      refine h.congr rfl rfl ?_ rfl
      rw [asking, asking, outstanding_of_idle hidle]
      rfl
  | clear hended hcleared => exact h.clear hended

/-! ## Whole calls

A caller that is not interrupted, and a worker that is not, take these steps too. -/

/-- To submit a request is to enter it, to send its job, and to take it back if that fails. -/
theorem submit_steps (t : Traffic) (event : Event) :
    ∃ u, Relation.ReflTransGen Step t u ∧ u.dispatcher = t.dispatcher.submit event ∧
      u.unsent = t.unsent ∧ u.refused = t.refused := by
  have henter : Relation.ReflTransGen Step t (t.enter event t.dispatcher.rules) :=
    .single (.enter event t.dispatcher.rules)
  cases hcontains : t.dispatcher.inFlight.contains
      (.ofEvent event t.dispatcher.rules.generation) with
  | true =>
      refine ⟨_, henter, ?_, ?_, rfl⟩
      · simp [enter, submit, Dispatcher.enter, Dispatcher.enterUnder, hcontains]
      · simp [enter, Dispatcher.enterUnder, hcontains]
  | false =>
      have hunsent : (t.enter event t.dispatcher.rules).unsent.Perm
          (⟨t.dispatcher.nextCaller, event, t.dispatcher.rules⟩ :: t.unsent) := by
        simp [enter, Dispatcher.enterUnder, hcontains, List.perm_append_singleton]
      have hsend := henter.tail (.send hunsent)
      have hentered : t.dispatcher.enter event =
          (some (Request.job ⟨t.dispatcher.nextCaller, event, t.dispatcher.rules⟩),
            (t.enter event t.dispatcher.rules).dispatcher) := by
        rw [Dispatcher.enter, Dispatcher.enterUnder, if_neg (Bool.eq_false_iff.mp hcontains)]
        rfl
      cases hr : t.dispatcher.isRunning with
      | true =>
          have hrunning : (t.enter event t.dispatcher.rules).dispatcher.isRunning = true := hr
          rw [send_of_running hrunning] at hsend
          exact ⟨_, hsend, (Dispatcher.submit_of_running hentered hrunning).symm, rfl, rfl⟩
      | false =>
          have hended : (t.enter event t.dispatcher.rules).dispatcher.isRunning = false := hr
          rw [send_of_ended hended] at hsend
          exact ⟨_, hsend.tail (.withdraw (List.Perm.refl _)),
            (Dispatcher.submit_of_ended hentered hended).symm, rfl, rfl⟩

/-- The worker finishes the job that it does, or breaks down. -/
theorem finish_steps (t : Traffic) :
    ∃ u, Relation.ReflTransGen Step t u ∧ u.dispatcher = t.dispatcher.finish ∧
      u.cleared = t.cleared := by
  cases hworker : t.dispatcher.worker with
  | busy job =>
      rcases hrun : job.run.outcome t.dispatcher.engine with ⟨fault | reply, engine⟩
      · refine ⟨_, .single (.fail hworker engine), ?_, rfl⟩
        have hresult : job.run t.dispatcher.engine = (.error fault, engine) := hrun
        rw [Dispatcher.finish, hworker]
        dsimp only
        rw [hresult]
        rfl
      · exact ⟨_, .single (.finish hworker hrun), rfl, rfl⟩
  | idle | crashed | stopped =>
      refine ⟨t, .refl, ?_, rfl⟩
      rw [Dispatcher.finish, hworker]

/-- The worker does some jobs, and clears up if it broke down. -/
theorem work_steps (jobs : Nat) (t : Traffic) (hcleared : t.cleared = false) :
    ∃ u, Relation.ReflTransGen Step t u ∧ u.dispatcher = workFor jobs t.dispatcher := by
  induction jobs generalizing t with
  | zero =>
      cases hr : t.dispatcher.isRunning with
      | true => exact ⟨t, .refl, by rw [workFor, Dispatcher.clear, if_pos hr]⟩
      | false => exact ⟨_, .single (.clear hr hcleared), rfl⟩
  | succ jobs ih =>
      obtain ⟨u, hsteps, hfinish, hkept⟩ := finish_steps t.take
      obtain ⟨v, hrest, hwork⟩ := ih u (hkept.trans hcleared)
      refine ⟨v, (Relation.ReflTransGen.head .take hsteps).trans hrest, ?_⟩
      rw [hwork, hfinish]
      rfl

end Traffic
end Placement
