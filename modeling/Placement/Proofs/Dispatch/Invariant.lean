import Placement.Proofs.Dispatch.Joining
/-! # What holds in every reachable state

Three more things that each step keeps.  What the worker finished is a **run of the engine**
on the jobs, one after the other (`Replayed`).  The jobs are done in the order in which they
were sent, and **a command is sent when its caller comes** (`Ordered`).  After a worker that
ended has cleared the table, only requests whose job could not be sent are in it (`Backed`).
-/
namespace Placement
namespace Traffic
open Dispatcher Attempt
variable {t u : Traffic} {engine : Engine} {rules : RuleSet} {caller leader : Caller}
  {key : RequestKey} {job : Job} {request : Request} {others : List Request}

/-! ## The run of the engine -/

/-- The engine after some jobs. -/
def replay (engine : Engine) (jobs : List Job) : Engine :=
  jobs.foldl (fun engine job => (job.run.outcome engine).2) engine

theorem replay_concat (engine : Engine) (jobs : List Job) (job : Job) :
    replay engine (jobs ++ [job]) = (job.run.outcome (replay engine jobs)).2 :=
  List.foldl_append

/-- **What the worker finished is a run of the engine** on the jobs. -/
structure Replayed (engine : Engine) (t : Traffic) : Prop where
  current : t.dispatcher.isRunning = true →
    t.dispatcher.engine = replay engine (t.done.map Completion.job)
  runs : ∀ earlier run later, t.done = earlier ++ run :: later →
    run.before = replay engine (earlier.map Completion.job) ∧
      (run.job.run.outcome run.before).1 = .ok run.reply

theorem replayed_start (engine : Engine) (rules : RuleSet) :
    Replayed engine.reopen (start engine rules) :=
  ⟨fun _ => rfl, fun earlier _ _ h => absurd h.symm (by simp [start])⟩

/-- A step that does not concern the engine. -/
theorem Replayed.frame (h : Replayed engine t) (hdone : u.done = t.done)
    (hrunning : u.dispatcher.isRunning = true → t.dispatcher.isRunning = true)
    (hengine : u.dispatcher.isRunning = true → u.dispatcher.engine = t.dispatcher.engine) :
    Replayed engine u := by
  refine ⟨fun hr => ?_, hdone ▸ h.runs⟩
  rw [hengine hr, hdone]
  exact h.current (hrunning hr)

theorem Replayed.finish (h : Replayed engine t) {reply : Reply} {next : Engine}
    (hbusy : t.dispatcher.worker = .busy job)
    (hrun : job.run.outcome t.dispatcher.engine = (.ok reply, next)) :
    Replayed engine (t.finish job reply) := by
  have hcurrent := h.current (isRunning_of_busy hbusy)
  have hfinish : (t.finish job reply).dispatcher = _ := finish_of_busy hbusy hrun
  constructor
  · intro _
    have hdone : (t.finish job reply).done.map Completion.job =
        t.done.map Completion.job ++ [job] := List.map_append
    rw [hfinish, hdone, replay_concat, ← hcurrent, hrun]
  · intro earlier run later hdone
    rw [Traffic.finish] at hdone
    rcases List.eq_nil_or_concat later with rfl | ⟨before, last, rfl⟩
    · obtain ⟨hbefore, hlast⟩ := List.append_inj' hdone rfl
      obtain ⟨rfl, -⟩ := List.cons.inj hlast
      exact ⟨hbefore ▸ hcurrent, congrArg Prod.fst hrun⟩
    · rw [List.concat_eq_append, ← List.cons_append, ← List.append_assoc] at hdone
      exact h.runs earlier run before (List.append_inj' hdone rfl).1

theorem Replayed.step (h : Replayed engine t) (hs : Step t u) : Replayed engine u := by
  cases hs with
  | enter event rules => exact h.frame rfl id fun _ => rfl
  | send hunsent =>
      cases hr : t.dispatcher.isRunning with
      | true =>
          rw [send_of_running hr]
          exact h.frame rfl id fun _ => rfl
      | false =>
          rw [send_of_ended hr]
          exact h.frame rfl id fun _ => rfl
  | withdraw hrefused => exact h.frame rfl id fun _ => rfl
  | ask command =>
      cases hr : t.dispatcher.isRunning with
      | true =>
          rw [ask_of_running hr]
          exact h.frame rfl id fun _ => rfl
      | false =>
          rw [ask_of_ended hr]
          exact h.frame rfl id fun _ => rfl
  | take =>
      obtain ⟨-, hrunning, -, -, -, hengine⟩ := take_spec (d := t.dispatcher)
      exact h.frame rfl (fun hr => hrunning ▸ hr) fun _ => hengine
  | finish hbusy hrun => exact h.finish hbusy hrun
  | fail hbusy engine => exact h.frame rfl nofun nofun
  | close => exact h.frame rfl id fun _ => rfl
  | stop hidle hqueue hclosed => exact h.frame rfl nofun nofun
  | clear hended hcleared =>
      have hclear : t.clear.dispatcher = _ := clear_of_ended hended
      refine h.frame rfl (fun hr => ?_) fun _ => by rw [hclear]; rfl
      rwa [hclear] at hr

/-! ## The order of the jobs -/

/-- **The worker does the jobs in the order in which they were sent**; no caller sends two,
and a command is sent when its caller comes. -/
structure Ordered (t : Traffic) : Prop where
  distinct : (t.unsent.map Request.caller ++ t.sent.map Prod.fst).Nodup
  earlier : ∀ caller ∈ t.unsent.map Request.caller ++ t.sent.map Prod.fst,
    caller < t.dispatcher.nextCaller
  own : ∀ entry ∈ t.sent, ∀ caller command, entry.2 = .single caller command → entry.1 = caller
  commands : t.sent.Pairwise fun first second => second.2.key? = none → first.1 < second.1
  answered : t.done.map (fun run => (run.callers.head?, run.job)) <+:
    t.sent.map fun entry => (some entry.1, entry.2)

theorem ordered_start (engine : Engine) (rules : RuleSet) : Ordered (start engine rules) :=
  ⟨List.nodup_nil, fun _ h => absurd h List.not_mem_nil, fun _ h => absurd h List.not_mem_nil,
    List.Pairwise.nil, List.nil_prefix⟩

/-- A step by which no job comes or goes. -/
theorem Ordered.frame (h : Ordered t) (hunsent : u.unsent = t.unsent) (hsent : u.sent = t.sent)
    (hdone : u.done = t.done) (hnext : t.dispatcher.nextCaller ≤ u.dispatcher.nextCaller) :
    Ordered u where
  distinct := hunsent ▸ hsent ▸ h.distinct
  earlier caller hcaller :=
    Nat.lt_of_lt_of_le (h.earlier caller (hunsent ▸ hsent ▸ hcaller)) hnext
  own := hsent ▸ h.own
  commands := hsent ▸ h.commands
  answered := hsent ▸ hdone ▸ h.answered

/-- A new caller whose job is still to be sent. -/
theorem Ordered.enter (h : Ordered t) (event : Event) (rules : RuleSet) :
    Ordered (t.enter event rules) := by
  by_cases hkey : .ofEvent event rules.generation ∈ t.dispatcher.inFlight.keys
  · exact h.frame (unsent_enter_of_mem hkey) rfl rfl (Nat.le_succ _)
  · have hcallers : ((t.enter event rules).unsent.map Request.caller ++
        t.sent.map Prod.fst).Perm
        (t.dispatcher.nextCaller :: (t.unsent.map Request.caller ++ t.sent.map Prod.fst)) := by
      rw [unsent_enter_of_not_mem hkey, List.map_append, List.append_assoc]
      exact List.perm_middle
    refine ⟨?_, fun caller hcaller => ?_, h.own, h.commands, h.answered⟩
    · refine hcallers.nodup_iff.mpr (List.nodup_cons.mpr ⟨fun hmem => ?_, h.distinct⟩)
      exact Nat.lt_irrefl _ (h.earlier _ hmem)
    · rcases List.mem_cons.mp (hcallers.mem_iff.mp hcaller) with rfl | hold
      · exact Nat.lt_succ_self _
      · exact Nat.lt_succ_of_lt (h.earlier caller hold)

/-- A caller sends the job of its request. -/
theorem Ordered.send (h : Ordered t) (hunsent : t.unsent.Perm (request :: others)) {d : Dispatcher}
    (hnext : d.nextCaller = t.dispatcher.nextCaller) :
    Ordered { t with
      dispatcher := d, unsent := others, sent := t.sent ++ [(request.caller, request.job)] } := by
  have hcallers : (others.map Request.caller ++
      (t.sent ++ [(request.caller, request.job)]).map Prod.fst).Perm
      (t.unsent.map Request.caller ++ t.sent.map Prod.fst) := by
    refine List.Perm.trans ?_ ((hunsent.map Request.caller).append_right _).symm
    rw [List.map_append, ← List.append_assoc]
    exact List.perm_append_singleton _ _
  refine ⟨hcallers.nodup_iff.mpr h.distinct, fun caller hcaller => ?_, ?_, ?_, ?_⟩
  · rw [hnext]
    exact h.earlier caller (hcallers.mem_iff.mp hcaller)
  · intro entry hentry
    rcases List.mem_append.mp hentry with hold | hnew
    · exact h.own entry hold
    · intro caller command heq
      rw [List.mem_singleton.mp hnew] at heq
      cases heq
  · refine List.pairwise_append.mpr ⟨h.commands, List.pairwise_singleton _ _, ?_⟩
    intro first _ second hsecond hnone
    rw [List.mem_singleton.mp hsecond] at hnone
    cases hnone
  · rw [List.map_append]
    exact h.answered.trans (List.prefix_append _ _)

/-- A new caller sends a command. -/
theorem Ordered.ask (h : Ordered t) (command : Command) {d : Dispatcher}
    (hnext : d.nextCaller = t.dispatcher.nextCaller + 1) :
    Ordered { t with
      dispatcher := d
      sent := t.sent ++
        [(t.dispatcher.nextCaller, .single t.dispatcher.nextCaller command)] } := by
  have hcallers : (t.unsent.map Request.caller ++ (t.sent ++
      [(t.dispatcher.nextCaller, Job.single t.dispatcher.nextCaller command)]).map Prod.fst).Perm
      (t.dispatcher.nextCaller :: (t.unsent.map Request.caller ++ t.sent.map Prod.fst)) := by
    rw [List.map_append, ← List.append_assoc]
    exact List.perm_append_singleton _ _
  refine ⟨?_, fun caller hcaller => ?_, ?_, ?_, ?_⟩
  · refine hcallers.nodup_iff.mpr (List.nodup_cons.mpr ⟨fun hmem => ?_, h.distinct⟩)
    exact Nat.lt_irrefl _ (h.earlier _ hmem)
  · rw [hnext]
    rcases List.mem_cons.mp (hcallers.mem_iff.mp hcaller) with rfl | hold
    · exact Nat.lt_succ_self _
    · exact Nat.lt_succ_of_lt (h.earlier caller hold)
  · intro entry hentry caller found heq
    rcases List.mem_append.mp hentry with hold | hnew
    · exact h.own entry hold caller found heq
    · rw [List.mem_singleton.mp hnew] at heq ⊢
      exact (Job.single.inj heq).1
  · refine List.pairwise_append.mpr ⟨h.commands, List.pairwise_singleton _ _, ?_⟩
    intro first hfirst second hsecond _
    rw [List.mem_singleton.mp hsecond]
    exact h.earlier _ (List.mem_append_right _ (List.mem_map_of_mem hfirst))
  · rw [List.map_append]
    exact h.answered.trans (List.prefix_append _ _)

/-- What was sent: the jobs that are done, with those that sent them, and what is pending. -/
theorem Ordered.sent_eq (h : Ordered t) :
    t.sent.map (fun entry => (some entry.1, entry.2)) =
      t.done.map (fun run => (run.callers.head?, run.job)) ++
        t.pending.map fun entry => (some entry.1, entry.2) := by
  have htake := List.prefix_iff_eq_take.mp h.answered
  rw [List.length_map] at htake
  rw [htake, pending, List.map_drop, List.take_append_drop]

/-- The worker answers whoever sent the job, in front of the others. -/
theorem Ordered.finish (h : Ordered t) (hqueued : Queued t) (howned : Owned t)
    (haccounted : Accounted t.dispatcher) {reply : Reply} {next : Engine}
    (hbusy : t.dispatcher.worker = .busy job)
    (hrun : job.run.outcome t.dispatcher.engine = (.ok reply, next)) :
    Ordered (t.finish job reply) := by
  have hfinish : (t.finish job reply).dispatcher = _ := finish_of_busy hbusy hrun
  refine ⟨h.distinct, ?_, h.own, h.commands, ?_⟩
  · rw [hfinish]
    exact h.earlier
  · obtain ⟨leader, rest, hpending, hfirst⟩ : ∃ leader rest, t.pending = (leader, job) :: rest ∧
        (job.callers t.dispatcher.inFlight).head? = some leader := by
      cases job with
      | shared key event rules =>
          obtain ⟨leader, rest, hpending, hentry⟩ := howned.entry_of_busy hqueued hbusy reply
          refine ⟨leader, _, hpending, ?_⟩
          rw [Job.callers, Waitlist.waiting_eq_of_mem haccounted.keys hentry]
          rfl
      | single caller command =>
          obtain ⟨leader, hpending⟩ := hqueued.pending_of_busy hbusy reply
          have hmem : (leader, Job.single caller command) ∈ t.sent := by
            refine List.mem_of_mem_drop (i := t.done.length) ?_
            rw [← pending, hpending]
            exact List.mem_cons_self
          exact ⟨leader, _, hpending, congrArg some (h.own _ hmem caller command rfl).symm⟩
    show (t.done ++ [_]).map _ <+: t.sent.map _
    rw [h.sent_eq, hpending, List.map_append, List.map_cons, List.map_cons, hfirst]
    exact (List.prefix_append_right_inj _).mpr (List.cons_prefix_cons.mpr ⟨rfl, List.nil_prefix⟩)

theorem Ordered.step (h : Ordered t) (hqueued : Queued t) (howned : Owned t)
    (haccounted : Accounted t.dispatcher) (hs : Step t u) : Ordered u := by
  cases hs with
  | enter event rules => exact h.enter event rules
  | send hunsent =>
      cases hr : t.dispatcher.isRunning with
      | true =>
          rw [send_of_running hr]
          exact h.send hunsent rfl
      | false =>
          rw [send_of_ended hr]
          have hcallers := (hunsent.map Request.caller).append_right (t.sent.map Prod.fst)
          refine ⟨(hcallers.nodup_iff.mp h.distinct).of_cons, fun caller hcaller => ?_, h.own,
            h.commands, h.answered⟩
          exact h.earlier caller (hcallers.mem_iff.mpr (List.mem_cons_of_mem _ hcaller))
  | withdraw hrefused => exact h.frame rfl rfl rfl (Nat.le_refl _)
  | ask command =>
      cases hr : t.dispatcher.isRunning with
      | true =>
          rw [ask_of_running hr]
          exact h.ask command rfl
      | false =>
          rw [ask_of_ended hr]
          exact h.frame rfl rfl rfl (Nat.le_succ _)
  | take =>
      obtain ⟨-, -, -, -, hnext, -⟩ := take_spec (d := t.dispatcher)
      exact h.frame rfl rfl rfl (Nat.le_of_eq hnext.symm)
  | finish hbusy hrun => exact h.finish hqueued howned haccounted hbusy hrun
  | fail hbusy engine => exact h.frame rfl rfl rfl (Nat.le_refl _)
  | close => exact h.frame rfl rfl rfl (Nat.le_refl _)
  | stop hidle hqueue hclosed => exact h.frame rfl rfl rfl (Nat.le_refl _)
  | clear hended hcleared =>
      have hclear : t.clear.dispatcher = _ := clear_of_ended hended
      refine h.frame rfl rfl rfl ?_
      rw [hclear]
      exact Nat.le_refl _

/-! ## After the worker has ended -/

/-- **Once the table was cleared, every key in it is the key of a request whose job could not
be sent** or is still to be sent in vain. -/
def Backed (t : Traffic) : Prop :=
  t.cleared = true → ∀ key ∈ t.dispatcher.inFlight.keys, ∃ request ∈ t.unsent ++ t.refused,
    request.key = key

theorem Backed.step (h : Backed t) (hqueued : Queued t) (hs : Step t u) : Backed u := by
  have hended : ∀ {p : Prop}, t.dispatcher.isRunning = true → t.cleared = true → p :=
    fun hr hc => Bool.noConfusion (hr.symm.trans (hqueued.cleared hc))
  cases hs with
  | enter event rules =>
      intro hc key hkey
      by_cases hmem : .ofEvent event rules.generation ∈ t.dispatcher.inFlight.keys
      · rw [unsent_enter_of_mem hmem]
        exact h hc key ((Waitlist.keys_join_of_mem hmem) ▸ hkey)
      · have hkeys : key ∈ t.dispatcher.inFlight.keys ++ [.ofEvent event rules.generation] :=
          Waitlist.keys_join_of_not_mem hmem ▸ hkey
        rw [unsent_enter_of_not_mem hmem]
        rcases List.mem_append.mp hkeys with hold | hnew
        · obtain ⟨request, hrequest, hfound⟩ := h hc key hold
          exact ⟨request, by simp only [List.mem_append] at hrequest ⊢; tauto, hfound⟩
        · exact ⟨_, List.mem_append_left _ (List.mem_append_right _ List.mem_cons_self),
            (List.mem_singleton.mp hnew).symm⟩
  | @send request others hunsent =>
      cases hr : t.dispatcher.isRunning with
      | true =>
          rw [send_of_running hr]
          exact fun hc => hended hr hc
      | false =>
          rw [send_of_ended hr]
          intro hc key hkey
          obtain ⟨request, hrequest, hfound⟩ := h hc key hkey
          -- The request moves from those to be sent to those to be taken back.
          have hmoved : (t.unsent ++ t.refused).Perm (others ++ _ :: t.refused) :=
            (hunsent.append_right _).trans List.perm_middle.symm
          exact ⟨request, hmoved.mem_iff.mp hrequest, hfound⟩
  | @withdraw request others hrefused =>
      intro hc key hkey
      -- What is left in the table has other keys than the request that is taken back.
      obtain ⟨hold, hne⟩ := Waitlist.mem_keys_remove.mp hkey
      obtain ⟨found, hfound, hsame⟩ := h hc key hold
      rcases List.mem_append.mp hfound with hunsent | hmem
      · exact ⟨found, List.mem_append_left _ hunsent, hsame⟩
      · rcases List.mem_cons.mp (hrefused.mem_iff.mp hmem) with rfl | hother
        · exact absurd hsame.symm hne
        · exact ⟨found, List.mem_append_right _ hother, hsame⟩
  | ask command =>
      cases hr : t.dispatcher.isRunning with
      | true => exact fun hc => hended hr hc
      | false =>
          rw [ask_of_ended hr]
          exact h
  | take =>
      obtain ⟨-, -, hinFlight, -⟩ := take_spec (d := t.dispatcher)
      intro hc key hkey
      exact h hc key (hinFlight ▸ hkey)
  | finish hbusy hrun => exact fun hc => hended (isRunning_of_busy hbusy) hc
  | fail hbusy engine => exact fun hc => hended (isRunning_of_busy hbusy) hc
  | close => exact h
  | stop hidle hqueue hclosed => exact h
  | clear hended hcleared =>
      intro _ key hkey
      have hclear : t.clear.dispatcher = _ := clear_of_ended hended
      rw [hclear] at hkey
      cases hkey

/-! ## Every reachable state -/

/-- What holds between the steps. -/
structure Sound (engine : Engine) (t : Traffic) : Prop where
  queued : Queued t
  accounted : Accounted t.dispatcher
  owned : Owned t
  followed : Followed t
  replayed : Replayed engine t
  ordered : Ordered t
  backed : Backed t

theorem Sound.step (h : Sound engine t) (hs : Step t u) : Sound engine u where
  queued := h.queued.step hs
  accounted := accounted_step h.queued h.accounted hs
  owned := by
    refine h.owned.step h.queued h.accounted (fun entry hentry => ?_) hs
    obtain ⟨leader, rest, hcallers, -⟩ := h.followed.waiting entry hentry
    rw [hcallers]
    exact List.cons_ne_nil _ _
  followed := h.followed.step h.queued h.owned h.accounted hs
  replayed := h.replayed.step hs
  ordered := h.ordered.step h.queued h.owned h.accounted hs
  backed := h.backed.step h.queued hs

/-- **Every state that a dispatcher can reach is sound.** -/
theorem sound_of_reachable (h : Reachable engine rules t) : Sound engine.reopen t := by
  induction h with
  | start =>
      exact ⟨queued_start engine rules, accounted_start engine rules, owned_start engine rules,
        followed_start engine rules, replayed_start engine rules, ordered_start engine rules, nofun⟩
  | next _ hs ih => exact ih.step hs

end Traffic
end Placement
