import Placement.Proofs.Dispatch.Ownership
/-! # Who waits joined, and who was answered did

Those that wait for a key are the callers that joined its evaluation, the one that started
it in front; **a finished evaluation answered exactly the callers that joined it**
(`Followed`).
-/
namespace Placement
namespace Traffic
open Dispatcher Attempt
variable {t u : Traffic} {caller leader : Caller} {key : RequestKey} {job : Job}

/-- **All callers that joined one evaluation of a key**, the one that started it in front. -/
def Joined (t : Traffic) (key : RequestKey) (callers : List Caller) : Prop :=
  ∃ leader rest, callers = leader :: rest ∧ t.followers leader = callers ∧
    ∀ joining ∈ t.joinings, joining.leader = leader → joining.key = key

/-- Who a finished job answered: the caller of a command, or all callers that joined the
evaluation. -/
def Served (t : Traffic) (run : Completion) : Prop :=
  match run.job with
  | .single caller _ => run.callers = [caller] ∧ ∀ joining ∈ t.joinings, joining.caller ≠ caller
  | .shared key _ _ => Joined t key run.callers

/-- **Those that wait for a key are the callers that joined its evaluation**, and those that
were answered joined the evaluation that was finished. -/
structure Followed (t : Traffic) : Prop where
  earlier : ∀ joining ∈ t.joinings, joining.caller < t.dispatcher.nextCaller ∧
    joining.leader < t.dispatcher.nextCaller
  distinct : (t.joinings.map Joining.caller).Nodup
  asking : ∀ joining ∈ t.joinings, joining.caller ∉ t.dispatcher.asking
  waiting : ∀ entry ∈ t.dispatcher.inFlight, Joined t entry.1 entry.2
  served : ∀ run ∈ t.done, Served t run
  replied : ∀ run ∈ t.done, ∀ caller ∈ run.callers,
    (caller, some run.reply) ∈ t.dispatcher.answers
  replies : ∀ caller reply, (caller, some reply) ∈ t.dispatcher.answers →
    ∃ run ∈ t.done, caller ∈ run.callers ∧ run.reply = reply

theorem followed_start (engine : Engine) (rules : RuleSet) : Followed (start engine rules) :=
  ⟨fun _ h => absurd h List.not_mem_nil, List.nodup_nil, fun _ h => absurd h List.not_mem_nil,
    fun _ h => absurd h List.not_mem_nil, fun _ h => absurd h List.not_mem_nil,
    fun _ h => absurd h List.not_mem_nil, fun _ _ h => absurd h List.not_mem_nil⟩

theorem followers_congr (h : u.joinings = t.joinings) :
    u.followers leader = t.followers leader := by
  rw [followers, followers, h]

theorem Joined.congr {callers : List Caller} (h : Joined t key callers)
    (hjoinings : u.joinings = t.joinings) : Joined u key callers := by
  obtain ⟨leader, rest, hcallers, hfollowers, hkey⟩ := h
  exact ⟨leader, rest, hcallers, (followers_congr hjoinings).trans hfollowers, hjoinings ▸ hkey⟩

theorem Served.congr {run : Completion} (h : Served t run) (hjoinings : u.joinings = t.joinings) :
    Served u run := by
  unfold Served at h ⊢
  split
  · rename_i caller command hjob
    rw [hjob] at h
    exact ⟨h.1, hjoinings ▸ h.2⟩
  · rename_i key event rules hjob
    rw [hjob] at h
    exact Joined.congr h hjoinings

/-- A step that no new request enters and that finishes no job. -/
theorem Followed.frame (h : Followed t) (hjoinings : u.joinings = t.joinings)
    (hdone : u.done = t.done) (hnext : t.dispatcher.nextCaller ≤ u.dispatcher.nextCaller)
    (hasking : ∀ joining ∈ t.joinings, joining.caller ∈ u.dispatcher.asking →
      joining.caller ∈ t.dispatcher.asking)
    (hinFlight : ∀ entry ∈ u.dispatcher.inFlight, entry ∈ t.dispatcher.inFlight)
    (hanswers : ∃ dropped : List Caller, u.dispatcher.answers =
      t.dispatcher.answers ++ dropped.map fun caller => (caller, none)) : Followed u := by
  obtain ⟨dropped, hanswers⟩ := hanswers
  refine ⟨?earlier, hjoinings ▸ h.distinct, ?asking, ?waiting, ?served, ?replied, ?replies⟩
  case earlier =>
    rw [hjoinings]
    exact fun joining hj => (h.earlier joining hj).imp
      (fun hlt => Nat.lt_of_lt_of_le hlt hnext) fun hlt => Nat.lt_of_lt_of_le hlt hnext
  case asking =>
    rw [hjoinings]
    exact fun joining hj hask => h.asking joining hj (hasking joining hj hask)
  case waiting =>
    exact fun entry hentry => (h.waiting entry (hinFlight entry hentry)).congr hjoinings
  case served =>
    rw [hdone]
    exact fun run hrun => (h.served run hrun).congr hjoinings
  case replied =>
    rw [hdone, hanswers]
    exact fun run hrun caller hcaller => List.mem_append_left _ (h.replied run hrun caller hcaller)
  case replies =>
    rw [hdone, hanswers]
    intro caller reply hmem
    rcases List.mem_append.mp hmem with hbefore | hdropped
    · exact h.replies caller reply hbefore
    · obtain ⟨_, -, heq⟩ := List.mem_map.mp hdropped
      cases heq

/-! ### A new caller -/

/-- The caller that started the evaluation that a new caller joins: the new caller itself, if
none is in flight. -/
def leaderFor (t : Traffic) (key : RequestKey) : Caller :=
  (t.dispatcher.inFlight.waiting key).headD t.dispatcher.nextCaller

section
variable {event : Event} {rules : RuleSet} {joining : Joining}

theorem joinings_enter (hkeys : t.dispatcher.inFlight.keys.Nodup) :
    (t.enter event rules).joinings = t.joinings ++
      [⟨t.dispatcher.nextCaller, .ofEvent event rules.generation,
        t.leaderFor (.ofEvent event rules.generation)⟩] := by
  have hwaiting : (t.dispatcher.inFlight.join (.ofEvent event rules.generation)
      t.dispatcher.nextCaller).waiting (.ofEvent event rules.generation) =
        t.dispatcher.inFlight.waiting (.ofEvent event rules.generation) ++
          [t.dispatcher.nextCaller] := Waitlist.waiting_join hkeys
  have hlead : ∀ waiting : List Caller,
      (waiting ++ [t.dispatcher.nextCaller]).headD t.dispatcher.nextCaller =
        waiting.headD t.dispatcher.nextCaller
    | [] => rfl
    | _ :: _ => rfl
  simp only [enter, enterUnder, Request.key, leaderFor, hwaiting, hlead]

theorem mem_joinings_enter (hkeys : t.dispatcher.inFlight.keys.Nodup) :
    joining ∈ (t.enter event rules).joinings ↔ joining ∈ t.joinings ∨
      joining = ⟨t.dispatcher.nextCaller, .ofEvent event rules.generation,
        t.leaderFor (.ofEvent event rules.generation)⟩ := by
  rw [joinings_enter hkeys, List.mem_append, List.mem_singleton]

theorem followers_enter (hkeys : t.dispatcher.inFlight.keys.Nodup) :
    (t.enter event rules).followers leader = t.followers leader ++
      if t.leaderFor (.ofEvent event rules.generation) = leader then [t.dispatcher.nextCaller]
      else [] := by
  rw [followers, followers, joinings_enter hkeys, List.filter_append, List.map_append]
  by_cases hlead : t.leaderFor (.ofEvent event rules.generation) = leader
  · simp [hlead]
  · simp [hlead]

/-- Who started an evaluation is among those that joined it. -/
theorem Joined.exists_joining {rest : List Caller} (h : Joined t key (leader :: rest)) :
    ∃ joining ∈ t.joinings, joining.leader = leader ∧ joining.key = key := by
  obtain ⟨first, others, hcallers, hfollowers, hkey⟩ := h
  obtain ⟨rfl, rfl⟩ := List.cons.inj hcallers
  have hmem : leader ∈ t.followers leader := hfollowers ▸ List.mem_cons_self
  obtain ⟨joining, hjoining, -⟩ := List.mem_map.mp hmem
  obtain ⟨hin, hlead⟩ := List.mem_filter.mp hjoining
  have hlead : joining.leader = leader := of_decide_eq_true hlead
  exact ⟨joining, hin, hlead, hkey joining hin hlead⟩

/-- Who joins another evaluation changes nothing for those that joined this one. -/
theorem Joined.enter {callers : List Caller} (h : Joined t key callers)
    (hkeys : t.dispatcher.inFlight.keys.Nodup)
    (hother : callers.head? ≠ some (t.leaderFor (.ofEvent event rules.generation))) :
    Joined (t.enter event rules) key callers := by
  obtain ⟨leader, rest, rfl, hfollowers, hkey⟩ := h
  have hne : t.leaderFor (.ofEvent event rules.generation) ≠ leader :=
    fun he => hother (congrArg some he.symm)
  refine ⟨leader, rest, rfl, ?_, fun joining hj hlead => ?_⟩
  · rw [followers_enter hkeys, if_neg hne, List.append_nil, hfollowers]
  · rcases (mem_joinings_enter hkeys).mp hj with hold | rfl
    · exact hkey joining hold hlead
    · exact absurd hlead hne

namespace Followed

/-- Who has not come yet is followed by nobody. -/
theorem followers_next (h : Followed t) : t.followers t.dispatcher.nextCaller = [] := by
  rw [followers, List.map_eq_nil_iff, List.filter_eq_nil_iff]
  intro joining hjoining hlead
  have hlt := (h.earlier joining hjoining).2
  rw [of_decide_eq_true hlead] at hlt
  exact Nat.lt_irrefl _ hlt

/-- The evaluation that a new caller joins is the one in flight with its key, if there is one. -/
theorem leaderFor_cases (h : Followed t) (hkeys : t.dispatcher.inFlight.keys.Nodup)
    (key : RequestKey) :
    (key ∉ t.dispatcher.inFlight.keys ∧ t.leaderFor key = t.dispatcher.nextCaller) ∨
      ∃ rest, (key, t.leaderFor key :: rest) ∈ t.dispatcher.inFlight := by
  by_cases hkey : key ∈ t.dispatcher.inFlight.keys
  · have hentry := Waitlist.mem_of_mem_keys hkeys hkey
    obtain ⟨leader, rest, hwaiting, -⟩ := h.waiting _ hentry
    refine .inr ⟨rest, ?_⟩
    rw [leaderFor, show t.dispatcher.inFlight.waiting key = leader :: rest from hwaiting]
    exact hwaiting ▸ hentry
  · refine .inl ⟨hkey, ?_⟩
    rw [leaderFor, Waitlist.waiting_eq_nil hkey]
    rfl

/-- A new caller joins evaluations of its own key only. -/
theorem key_of_leaderFor (h : Followed t) (hkeys : t.dispatcher.inFlight.keys.Nodup)
    (hjoining : joining ∈ t.joinings) (hlead : joining.leader = t.leaderFor key) :
    joining.key = key := by
  rcases h.leaderFor_cases hkeys key with ⟨-, hnext⟩ | ⟨rest, hentry⟩
  · have hlt := (h.earlier joining hjoining).2
    rw [hlead, hnext] at hlt
    exact absurd hlt (Nat.lt_irrefl _)
  · obtain ⟨leader, others, hcallers, -, hkey⟩ := h.waiting _ hentry
    obtain ⟨rfl, -⟩ := List.cons.inj hcallers
    exact hkey joining hjoining hlead

/-- Those that wait for a key joined the evaluation that a new caller joins. -/
theorem followers_leaderFor (h : Followed t) (hkeys : t.dispatcher.inFlight.keys.Nodup)
    (key : RequestKey) : t.followers (t.leaderFor key) = t.dispatcher.inFlight.waiting key := by
  rcases h.leaderFor_cases hkeys key with ⟨hkey, hnext⟩ | ⟨rest, hentry⟩
  · rw [Waitlist.waiting_eq_nil hkey, hnext, h.followers_next]
  · obtain ⟨leader, others, hcallers, hfollowers, -⟩ := h.waiting _ hentry
    obtain ⟨rfl, rfl⟩ := List.cons.inj hcallers
    rw [hfollowers, Waitlist.waiting_eq_of_mem hkeys hentry]

/-- Who was answered has come, and does not wait any more. -/
theorem settled (h : Followed t) (haccounted : Accounted t.dispatcher) {run : Completion}
    (hrun : run ∈ t.done) (hcaller : caller ∈ run.callers) :
    caller < t.dispatcher.nextCaller ∧ caller ∉ t.dispatcher.inFlight.callers := by
  have hanswered : caller ∈ t.dispatcher.answered :=
    List.mem_map_of_mem (f := Prod.fst) (h.replied run hrun caller hcaller)
  refine ⟨haccounted.lt_of_mem (List.mem_append_left _ (List.mem_append_left _ hanswered)), ?_⟩
  have hdisjoint := (List.nodup_append.mp (List.nodup_append.mp haccounted.nodup).1).2.2
  exact fun hwaits => hdisjoint caller hanswered caller hwaits rfl

/-- A new caller joins no evaluation that is finished. -/
theorem leaderFor_not_mem (h : Followed t) (haccounted : Accounted t.dispatcher)
    {run : Completion} (hrun : run ∈ t.done) : t.leaderFor key ∉ run.callers := by
  intro hleader
  obtain ⟨hlt, hwaits⟩ := h.settled haccounted hrun hleader
  rcases h.leaderFor_cases haccounted.keys key with ⟨-, hnext⟩ | ⟨rest, hentry⟩
  · rw [hnext] at hlt
    exact Nat.lt_irrefl _ hlt
  · exact hwaits (Waitlist.mem_callers.mpr ⟨_, hentry, List.mem_cons_self⟩)

theorem leaderFor_le (h : Followed t) (haccounted : Accounted t.dispatcher) :
    t.leaderFor key ≤ t.dispatcher.nextCaller := by
  rcases h.leaderFor_cases haccounted.keys key with ⟨-, hnext⟩ | ⟨rest, hentry⟩
  · exact Nat.le_of_eq hnext
  · have hwaits := Waitlist.mem_callers.mpr ⟨_, hentry, List.mem_cons_self⟩
    exact Nat.le_of_lt
      (haccounted.lt_of_mem (List.mem_append_left _ (List.mem_append_right _ hwaits)))

/-- A new caller comes last among those that joined its evaluation. -/
theorem joined_enter (h : Followed t) (haccounted : Accounted t.dispatcher)
    {entry : RequestKey × List Caller}
    (hentry : entry ∈ (t.enter event rules).dispatcher.inFlight) :
    Joined (t.enter event rules) entry.1 entry.2 := by
  have hkeys := haccounted.keys
  -- The entry that the new caller joined or made, and the entries of the other keys.
  rcases (Waitlist.mem_join hkeys).mp hentry with rfl | ⟨hold, hne⟩
  · have hfirst : ∀ waiting : List Caller, ∃ rest, waiting ++ [t.dispatcher.nextCaller] =
        waiting.headD t.dispatcher.nextCaller :: rest
      | [] => ⟨[], rfl⟩
      | _ :: rest => ⟨rest ++ [t.dispatcher.nextCaller], rfl⟩
    obtain ⟨rest, hrest⟩ :=
      hfirst (t.dispatcher.inFlight.waiting (.ofEvent event rules.generation))
    refine ⟨t.leaderFor _, rest, hrest, ?_, fun joining hj hlead => ?_⟩
    · rw [followers_enter hkeys, if_pos rfl, h.followers_leaderFor hkeys]
    · rcases (mem_joinings_enter hkeys).mp hj with hjoin | rfl
      · exact h.key_of_leaderFor hkeys hjoin hlead
      · rfl
  · refine (h.waiting entry hold).enter hkeys fun hhead => hne ?_
    obtain ⟨rest, hcallers⟩ := List.head?_eq_some_iff.mp hhead
    obtain ⟨joining, hj, hlead, hkey⟩ := (hcallers ▸ h.waiting entry hold).exists_joining
    exact hkey.symm.trans (h.key_of_leaderFor hkeys hj hlead)

/-- A new caller changes nothing for those that were answered. -/
theorem served_enter (h : Followed t) (haccounted : Accounted t.dispatcher) {run : Completion}
    (hrun : run ∈ t.done) : Served (t.enter event rules) run := by
  have hserved := h.served run hrun
  unfold Served at hserved ⊢
  split
  · rename_i caller command hjob
    rw [hjob] at hserved
    refine ⟨hserved.1, fun joining hj => ?_⟩
    rcases (mem_joinings_enter haccounted.keys).mp hj with hold | rfl
    · exact hserved.2 joining hold
    · have hcaller : caller ∈ run.callers := hserved.1 ▸ List.mem_cons_self
      exact Nat.ne_of_gt (h.settled haccounted hrun hcaller).1
  · rename_i key started ruled hjob
    rw [hjob] at hserved
    refine Joined.enter hserved haccounted.keys fun hhead => ?_
    exact h.leaderFor_not_mem haccounted hrun (List.mem_of_mem_head? hhead)

theorem enter (h : Followed t) (haccounted : Accounted t.dispatcher) :
    Followed (t.enter event rules) := by
  have hjoined : ∀ joining ∈ (t.enter event rules).joinings, joining ∈ t.joinings ∨ joining = _ :=
    fun _ => (mem_joinings_enter haccounted.keys).mp
  refine ⟨?earlier, ?distinct, ?asking, fun _ => h.joined_enter haccounted,
    fun _ => h.served_enter haccounted, h.replied, h.replies⟩
  case earlier =>
    intro joining hj
    rcases hjoined joining hj with hold | rfl
    · exact (h.earlier joining hold).imp Nat.lt_succ_of_lt Nat.lt_succ_of_lt
    · exact ⟨Nat.lt_succ_self _, Nat.lt_succ_of_le (h.leaderFor_le haccounted)⟩
  case distinct =>
    rw [joinings_enter haccounted.keys, List.map_append]
    refine List.nodup_append.mpr ⟨h.distinct, List.nodup_singleton _, ?_⟩
    intro caller hcaller other hother
    obtain ⟨joining, hj, rfl⟩ := List.mem_map.mp hcaller
    rw [List.mem_singleton.mp hother]
    exact Nat.ne_of_lt (h.earlier joining hj).1
  case asking =>
    intro joining hj
    rcases hjoined joining hj with hold | rfl
    · exact h.asking joining hold
    · exact fun hask => Nat.lt_irrefl _ (haccounted.lt_of_mem (List.mem_append_right _ hask))

end Followed
end

/-! ### The steps -/

/-- The worker answers the callers of a job. -/
theorem Followed.finish (h : Followed t) (hqueued : Queued t) (howned : Owned t)
    (haccounted : Accounted t.dispatcher) {reply : Reply} {engine : Engine}
    (hbusy : t.dispatcher.worker = .busy job)
    (hrun : job.run.outcome t.dispatcher.engine = (.ok reply, engine)) :
    Followed (t.finish job reply) := by
  have hfinish : (t.finish job reply).dispatcher = _ := finish_of_busy hbusy hrun
  have hdone : ∀ run, run ∈ (t.finish job reply).done ↔ run ∈ t.done ∨
      run = ⟨job, t.dispatcher.engine, job.callers t.dispatcher.inFlight, reply⟩ := fun run => by
    rw [Traffic.finish, List.mem_append, List.mem_singleton]
  have hasking : t.dispatcher.asking = (job :: t.dispatcher.queue).filterMap Job.caller? := by
    rw [Dispatcher.asking, outstanding_of_busy hbusy]
  refine ⟨?earlier, h.distinct, ?asking, ?waiting, ?served, ?replied, ?replies⟩
  case earlier =>
    rw [hfinish]
    exact h.earlier
  case asking =>
    intro joining hj hask
    rw [hfinish, Dispatcher.asking, outstanding_of_idle rfl] at hask
    refine h.asking joining hj ?_
    rw [hasking]
    exact ((List.sublist_cons_self job _).filterMap _).subset hask
  case waiting =>
    rw [hfinish]
    intro entry hentry
    cases job with
    | shared key event rules =>
        exact (h.waiting entry (Waitlist.mem_remove.mp hentry).1).congr rfl
    | single caller command => exact (h.waiting entry hentry).congr rfl
  case served =>
    intro run hmem
    rcases (hdone run).mp hmem with hold | rfl
    · exact (h.served run hold).congr rfl
    · cases job with
      | shared key event rules =>
          -- The running job owns the entry of its key, so those that wait there joined it.
          obtain ⟨leader, rest, -, hentry⟩ := howned.entry_of_busy hqueued hbusy reply
          have hjoined := h.waiting _ hentry
          rw [← Waitlist.waiting_eq_of_mem haccounted.keys hentry] at hjoined
          exact Joined.congr hjoined rfl
      | single caller command =>
          refine ⟨rfl, fun joining hj he => h.asking joining hj ?_⟩
          rw [hasking, he]
          exact List.mem_cons_self
  case replied =>
    intro run hmem caller hcaller
    rw [hfinish]
    rcases (hdone run).mp hmem with hold | rfl
    · exact List.mem_append_left _ (h.replied run hold caller hcaller)
    · exact List.mem_append_right _ (List.mem_map.mpr ⟨caller, hcaller, rfl⟩)
  case replies =>
    intro caller answer hmem
    rw [hfinish] at hmem
    rcases List.mem_append.mp hmem with hold | hnew
    · obtain ⟨run, hrun, hfound⟩ := h.replies caller answer hold
      exact ⟨run, (hdone run).mpr (.inl hrun), hfound⟩
    · obtain ⟨found, hfound, heq⟩ := List.mem_map.mp hnew
      cases heq
      exact ⟨_, (hdone _).mpr (.inr rfl), hfound, rfl⟩

theorem Followed.step (h : Followed t) (hqueued : Queued t) (howned : Owned t)
    (haccounted : Accounted t.dispatcher) (hs : Step t u) : Followed u := by
  cases hs with
  | enter event rules => exact h.enter haccounted
  | send hunsent =>
      cases hr : t.dispatcher.isRunning with
      | true =>
          rw [send_of_running hr]
          refine h.frame rfl rfl (Nat.le_refl _) (fun joining _ hask => ?_) (fun _ => id)
            ⟨[], (List.append_nil _).symm⟩
          simpa [Dispatcher.asking, outstanding, running, Request.job, Job.caller?] using hask
      | false =>
          rw [send_of_ended hr]
          exact h.frame rfl rfl (Nat.le_refl _) (fun _ _ => id) (fun _ => id)
            ⟨[], (List.append_nil _).symm⟩
  | withdraw hrefused =>
      exact h.frame rfl rfl (Nat.le_refl _) (fun _ _ => id)
        (fun _ hentry => (Waitlist.mem_remove.mp hentry).1) ⟨_, rfl⟩
  | ask command =>
      cases hr : t.dispatcher.isRunning with
      | true =>
          rw [ask_of_running hr]
          refine h.frame rfl rfl (Nat.le_succ _) (fun joining hj hask => ?_) (fun _ => id)
            ⟨[], (List.append_nil _).symm⟩
          have hne := Nat.ne_of_lt (h.earlier joining hj).1
          simpa [Dispatcher.asking, outstanding, running, List.filterMap_append, Job.caller?, hne]
            using hask
      | false =>
          rw [ask_of_ended hr]
          exact h.frame rfl rfl (Nat.le_succ _) (fun _ _ => id) (fun _ => id) ⟨_, rfl⟩
  | take =>
      obtain ⟨houtstanding, -, hinFlight, hanswers, hnext, -⟩ := take_spec (d := t.dispatcher)
      refine h.frame rfl rfl (Nat.le_of_eq hnext.symm) (fun joining _ hask => ?_)
        (fun entry hentry => ?_) ⟨[], hanswers.trans (List.append_nil _).symm⟩
      · rwa [Dispatcher.asking, ← houtstanding]
      · rwa [← hinFlight]
  | finish hbusy hrun => exact h.finish hqueued howned haccounted hbusy hrun
  | fail hbusy engine =>
      exact h.frame rfl rfl (Nat.le_refl _) (fun _ _ hask => absurd hask List.not_mem_nil)
        (fun _ => id) ⟨_, rfl⟩
  | close =>
      exact h.frame rfl rfl (Nat.le_refl _) (fun _ _ => id) (fun _ => id)
        ⟨[], (List.append_nil _).symm⟩
  | stop hidle hqueue hclosed =>
      refine h.frame rfl rfl (Nat.le_refl _) (fun joining _ hask => ?_) (fun _ => id)
        ⟨[], (List.append_nil _).symm⟩
      rwa [Dispatcher.asking, outstanding_of_idle hidle]
  | clear hended hcleared =>
      have hclear : t.clear.dispatcher = _ := clear_of_ended hended
      refine h.frame rfl rfl ?_ (fun joining _ hask => ?_) (fun entry hentry => ?_) ?_
      · rw [hclear]
        exact Nat.le_refl _
      · rwa [hclear] at hask
      · rw [hclear] at hentry
        cases hentry
      · rw [hclear]
        exact ⟨_, rfl⟩

end Traffic
end Placement
