import Mathlib.Data.List.Count
import Placement.Proofs.Dispatch.Invariant
/-! # Coalescing loses nothing and duplicates nothing

Between a caller's look at the table and its job on the queue, other callers come, the worker
finishes, breaks down, or clears the table, and keys are used again at once.  **Still every
caller gets one answer, and it is the one of the evaluation that it joined.**
-/
namespace Placement
namespace Traffic
open Dispatcher Attempt
variable {t : Traffic} {engine : Engine} {rules : RuleSet} {caller leader : Caller}
  {key : RequestKey} {joining : Joining} {run : Completion} {reply : Reply}

/-- **Nothing gets lost and nothing is done twice.** -/
structure Lossless (t : Traffic) : Prop where
  /-- A key in flight is that of one request on its way to the queue, of one job on the queue,
  or of the job that the worker does; and it is in flight as long as there is one. -/
  owner : t.dispatcher.isRunning = true → ∀ key,
    (t.unsent.map Request.key).count key + (t.dispatcher.queue.filterMap Job.key?).count key +
      (t.dispatcher.running.filterMap Job.key?).count key =
        if t.dispatcher.inFlight.contains key then 1 else 0
  /-- Who was not answered yet waits once, in one entry: that of the evaluation it joined. -/
  waits : ∀ joining ∈ t.joinings, t.dispatcher.answer? joining.caller = none →
      t.dispatcher.inFlight.filter (fun entry => joining.caller ∈ entry.2) =
        [(joining.key, t.followers joining.leader)] ∧
      (t.followers joining.leader).count joining.caller = 1
  /-- A finished evaluation gave its reply to the callers that joined it, and to nobody else. -/
  served : ∀ run ∈ t.done, ∀ key, run.job.key? = some key →
    (run.job.run.outcome run.before).1 = .ok run.reply ∧
    ∃ leader, (leader, run.job) ∈ t.sent ∧ run.callers = t.followers leader ∧
      (∀ joining ∈ t.joinings, joining.leader = leader → joining.key = key) ∧
      ∀ caller ∈ run.callers, t.dispatcher.answer? caller = some (some run.reply)
  /-- Whoever joined an evaluation and has a reply has it from the evaluation it joined. -/
  replied : ∀ joining ∈ t.joinings, ∀ reply,
    t.dispatcher.answer? joining.caller = some (some reply) →
      ∃ run ∈ t.done, run.job.key? = some joining.key ∧
        run.callers = t.followers joining.leader ∧ run.reply = reply
  /-- Nobody is answered twice. -/
  once : t.dispatcher.answered.Nodup
  /-- Once the worker has ended and the table was cleared, and no request is still to be sent
  or taken back, nothing is in flight and every caller was answered. -/
  cleared : t.cleared = true → t.unsent = [] → t.refused = [] →
    t.dispatcher.inFlight = [] ∧
      ∀ joining ∈ t.joinings, t.dispatcher.answered.count joining.caller = 1

/-! ## Answers -/

theorem answered_nodup (h : Accounted t.dispatcher) : t.dispatcher.answered.Nodup :=
  (List.nodup_append.mp (List.nodup_append.mp h.nodup).1).1

theorem answer?_eq_some (h : Accounted t.dispatcher) {answer : Option Reply}
    (hmem : (caller, answer) ∈ t.dispatcher.answers) :
    t.dispatcher.answer? caller = some answer := by
  obtain ⟨before, after, hanswers⟩ := List.append_of_mem hmem
  refine List.lookup_eq_some_iff.mpr ⟨before, after, hanswers, fun other hother => ?_⟩
  have hnodup := answered_nodup h
  rw [answered, hanswers, List.map_append] at hnodup
  exact bne_iff_ne.mpr ((List.nodup_append.mp hnodup).2.2 other.1 (List.mem_map_of_mem hother)
    caller List.mem_cons_self).symm

theorem mem_answers {answer : Option Reply} (h : t.dispatcher.answer? caller = some answer) :
    (caller, answer) ∈ t.dispatcher.answers := by
  obtain ⟨before, after, hanswers, -⟩ := List.lookup_eq_some_iff.mp h
  rw [hanswers]
  exact List.mem_append_right _ List.mem_cons_self

theorem not_mem_answered (h : t.dispatcher.answer? caller = none) :
    caller ∉ t.dispatcher.answered := by
  intro hmem
  obtain ⟨answer, hanswer, rfl⟩ := List.mem_map.mp hmem
  exact absurd (List.lookup_eq_none_iff.mp h answer hanswer) (by simp)

/-! ## Owners of keys -/

/-- The keys of the requests that are still to be sent and of the jobs that are not done. -/
theorem keys_owners (h : Queued t) (hr : t.dispatcher.isRunning = true) :
    t.owners.map Prod.snd =
      t.unsent.map Request.key ++ t.dispatcher.outstanding.filterMap Job.key? := by
  rw [owners, List.map_append, List.map_map, ← h.jobs_pending hr, List.filterMap_map,
    List.map_filterMap]
  refine congrArg₂ _ rfl (List.filterMap_congr fun entry _ => ?_)
  obtain ⟨caller, job⟩ := entry
  cases job <;> rfl

theorem mem_keys_iff (h : Sound engine t) (hr : t.dispatcher.isRunning = true) :
    key ∈ t.dispatcher.inFlight.keys ↔ key ∈ t.owners.map Prod.snd := by
  constructor
  · intro hkey
    have hentry := Waitlist.mem_of_mem_keys h.accounted.keys hkey
    obtain ⟨leader, rest, hcallers, -⟩ := h.followed.waiting _ hentry
    have hleads : t.dispatcher.inFlight.Leads leader key := ⟨rest, hcallers ▸ hentry⟩
    exact List.mem_map_of_mem (f := Prod.snd) ((h.owned.leads hr leader key).mpr hleads)
  · intro howner
    obtain ⟨⟨leader, _⟩, hmem, rfl⟩ := List.mem_map.mp howner
    obtain ⟨rest, hentry⟩ := (h.owned.leads hr leader _).mp hmem
    exact Waitlist.mem_keys_of_mem hentry

theorem count_key (h : Sound engine t) (hr : t.dispatcher.isRunning = true) (key : RequestKey) :
    (t.unsent.map Request.key).count key + (t.dispatcher.queue.filterMap Job.key?).count key +
      (t.dispatcher.running.filterMap Job.key?).count key =
        if t.dispatcher.inFlight.contains key then 1 else 0 := by
  have hcount : (t.owners.map Prod.snd).count key =
      if t.dispatcher.inFlight.contains key then 1 else 0 := by
    by_cases hkey : key ∈ t.dispatcher.inFlight.keys
    · rw [if_pos (Waitlist.contains_iff.mpr hkey)]
      exact List.count_eq_one_of_mem (h.owned.distinct hr) ((mem_keys_iff h hr).mp hkey)
    · rw [if_neg (mt Waitlist.contains_iff.mp hkey)]
      exact List.count_eq_zero.mpr (mt (mem_keys_iff h hr).mpr hkey)
  rw [← hcount, keys_owners h.queued hr, outstanding, List.filterMap_append, List.count_append,
    List.count_append]
  omega

/-! ## Those that joined -/

/-- Each caller joined one evaluation. -/
theorem joining_eq (h : Followed t) {other : Joining} (hjoining : joining ∈ t.joinings)
    (hother : other ∈ t.joinings) (hcaller : joining.caller = other.caller) : joining = other :=
  List.inj_on_of_nodup_map h.distinct hjoining hother hcaller

/-- Callers that joined one evaluation are the followers of the leader of any of them. -/
theorem Joined.eq_followers {callers : List Caller} (h : Joined t key callers)
    (hfollowed : Followed t) (hjoining : joining ∈ t.joinings) (hmem : joining.caller ∈ callers) :
    callers.head? = some joining.leader ∧ callers = t.followers joining.leader ∧
      joining.key = key := by
  obtain ⟨leader, rest, hcallers, hfollowers, hkey⟩ := h
  rw [← hfollowers] at hmem
  obtain ⟨found, hfound, hcaller⟩ := List.mem_map.mp hmem
  obtain ⟨hin, hleader⟩ := List.mem_filter.mp hfound
  have hleader : found.leader = leader := of_decide_eq_true hleader
  obtain rfl := joining_eq hfollowed hin hjoining hcaller
  exact ⟨by rw [hcallers, hleader]; rfl, by rw [hleader, hfollowers], hkey found hin hleader⟩

/-- Who was not answered waits in one entry. -/
theorem waits_once (h : Sound engine t) (hjoining : joining ∈ t.joinings)
    (hanswer : t.dispatcher.answer? joining.caller = none) :
    t.dispatcher.inFlight.filter (fun entry => joining.caller ∈ entry.2) =
        [(joining.key, t.followers joining.leader)] ∧
      (t.followers joining.leader).count joining.caller = 1 := by
  have hcome := h.accounted.callers.mem_iff.mpr
    (List.mem_range.mpr (h.followed.earlier joining hjoining).1)
  have hwaits : joining.caller ∈ t.dispatcher.inFlight.callers := by
    rcases List.mem_append.mp hcome with hfirst | hasking
    · exact (List.mem_append.mp hfirst).resolve_left (not_mem_answered hanswer)
    · exact absurd hasking (h.followed.asking joining hjoining)
  obtain ⟨⟨found, callers⟩, hentry, hcaller⟩ := Waitlist.mem_callers.mp hwaits
  obtain ⟨-, rfl, rfl⟩ := (h.followed.waiting _ hentry).eq_followers h.followed hjoining hcaller
  have hnodup : t.dispatcher.inFlight.callers.Nodup :=
    (List.nodup_append.mp (List.nodup_append.mp h.accounted.nodup).1).2.1
  exact ⟨Waitlist.filter_callers hnodup hentry hcaller,
    List.count_eq_one_of_mem (Waitlist.nodup_of_mem hnodup hentry) hcaller⟩

/-- The job of a finished evaluation was sent by the caller that started it. -/
theorem Ordered.mem_sent (h : Ordered t) (hrun : run ∈ t.done)
    (hleader : run.callers.head? = some leader) : (leader, run.job) ∈ t.sent := by
  have hmem := h.answered.subset (List.mem_map_of_mem hrun)
  obtain ⟨⟨caller, job⟩, hsent, heq⟩ := List.mem_map.mp hmem
  rw [hleader] at heq
  cases heq
  exact hsent

theorem joined_of_key (h : Followed t) (hrun : run ∈ t.done) (hkey : run.job.key? = some key) :
    Joined t key run.callers := by
  have hserved := h.served run hrun
  unfold Served at hserved
  cases hjob : run.job with
  | single caller command =>
      rw [hjob] at hkey
      cases hkey
  | shared found event rules =>
      rw [hjob] at hkey hserved
      cases hkey
      exact hserved

theorem Replayed.ran (h : Replayed engine t) (hrun : run ∈ t.done) :
    (run.job.run.outcome run.before).1 = .ok run.reply := by
  obtain ⟨earlier, later, hdone⟩ := List.append_of_mem hrun
  exact (h.runs earlier run later hdone).2

/-- Whoever joined an evaluation has its reply from that evaluation. -/
theorem replied_by (h : Sound engine t) (hjoining : joining ∈ t.joinings)
    (hanswer : t.dispatcher.answer? joining.caller = some (some reply)) :
    ∃ run ∈ t.done, run.job.key? = some joining.key ∧
      run.callers = t.followers joining.leader ∧ run.reply = reply ∧
        run.callers.head? = some joining.leader ∧ joining.caller ∈ run.callers := by
  obtain ⟨run, hrun, hcaller, hreply⟩ := h.followed.replies _ _ (mem_answers hanswer)
  have hserved := h.followed.served run hrun
  unfold Served at hserved
  cases hjob : run.job with
  | single caller command =>
      rw [hjob] at hserved
      rw [hserved.1, List.mem_singleton] at hcaller
      exact absurd hcaller (hserved.2 joining hjoining)
  | shared key event rules =>
      rw [hjob] at hserved
      obtain ⟨hhead, hcallers, hkey⟩ := Joined.eq_followers hserved h.followed hjoining hcaller
      exact ⟨run, hrun, by rw [hjob, Job.key?, hkey], hcallers, hreply, hhead, hcaller⟩

/-- After a worker that ended has cleared the table, and every request was taken back, all that
ever came are answered. -/
theorem cleared_empty (h : Sound engine t) (hcleared : t.cleared = true) (hunsent : t.unsent = [])
    (hrefused : t.refused = []) :
    t.dispatcher.inFlight = [] ∧
      ∀ joining ∈ t.joinings, t.dispatcher.answered.count joining.caller = 1 := by
  have hended := h.queued.cleared hcleared
  have hempty : t.dispatcher.inFlight = [] := by
    refine List.eq_nil_iff_forall_not_mem.mpr fun entry hentry => ?_
    obtain ⟨request, hmem, -⟩ := h.backed hcleared entry.1 (Waitlist.mem_keys_of_mem hentry)
    rw [hunsent, hrefused] at hmem
    cases hmem
  have hasking : t.dispatcher.asking = [] := by
    rw [asking, h.queued.ended hended]
    rfl
  refine ⟨hempty, fun joining hjoining => List.count_eq_one_of_mem (answered_nodup h.accounted) ?_⟩
  have hcome := h.accounted.callers.mem_iff.mpr
    (List.mem_range.mpr (h.followed.earlier joining hjoining).1)
  rw [hempty, hasking] at hcome
  simpa [Waitlist.callers] using hcome

/-- Who was answered by a finished evaluation has its reply. -/
theorem served_by (h : Sound engine t) (hrun : run ∈ t.done) (hkey : run.job.key? = some key) :
    (run.job.run.outcome run.before).1 = .ok run.reply ∧
    ∃ leader, (leader, run.job) ∈ t.sent ∧ run.callers = t.followers leader ∧
      (∀ joining ∈ t.joinings, joining.leader = leader → joining.key = key) ∧
      ∀ caller ∈ run.callers, t.dispatcher.answer? caller = some (some run.reply) := by
  obtain ⟨leader, rest, hcallers, hfollowers, hkeys⟩ := joined_of_key h.followed hrun hkey
  have hleader : run.callers.head? = some leader := congrArg List.head? hcallers
  exact ⟨h.replayed.ran hrun, leader, h.ordered.mem_sent hrun hleader, hfollowers.symm, hkeys,
    fun caller hcaller => answer?_eq_some h.accounted (h.followed.replied run hrun caller hcaller)⟩

/-! ## The result -/

/-- **Coalescing loses nothing and duplicates nothing**, in whatever order callers and worker
take their steps. -/
theorem lossless_of_reachable (h : Reachable engine rules t) : Lossless t where
  owner := count_key (sound_of_reachable h)
  waits _ := waits_once (sound_of_reachable h)
  served _ hrun _ := served_by (sound_of_reachable h) hrun
  replied _ hjoining _ hanswer := by
    obtain ⟨run, hrun, hkey, hcallers, hreply, -⟩ :=
      replied_by (sound_of_reachable h) hjoining hanswer
    exact ⟨run, hrun, hkey, hcallers, hreply⟩
  once := answered_nodup (sound_of_reachable h).accounted
  cleared := cleared_empty (sound_of_reachable h)

/-! ## A run -/

/-- A launch of the app. -/
def launch : Event := ⟨"launch", Timestamp.epoch, ∅⟩

/-- An engine over some stored documents. -/
def engineOver (documents : Dict Json) : Engine where
  cache := .ofStore (.ofDocuments documents) (Tape.const default)
  history := .empty
  user := none
  device := ⟨Tape.const (some ∅), 0⟩
  reporter := ⟨[], false⟩
  seedFromUserId := false

/-- Two callers ask for a launch, and the worker has begun with it. -/
def twoJoined : Traffic :=
  ((((start (engineOver ∅) .empty).enter launch .empty).enter launch .empty).send
    ⟨0, launch, .empty⟩ []).take

theorem reachable_twoJoined : Reachable (engineOver ∅) .empty twoJoined :=
  .next (.next (.next (.next .start (.enter launch .empty)) (.enter launch .empty))
    (.send (List.Perm.refl _))) .take

/-- They are answered; the worker breaks down when a third caller asks for the same, and
clears the table. -/
def thirdDropped : Traffic :=
  ((((twoJoined.finish (Request.job ⟨0, launch, .empty⟩) (.outcome (.eventNotFound "launch"))).enter
    launch .empty).send ⟨2, launch, .empty⟩ []).take.fail (Request.job ⟨2, launch, .empty⟩)
      (engineOver ∅)).clear

theorem reachable_thirdDropped : Reachable (engineOver ∅) .empty thirdDropped :=
  .next (.next (.next (.next (.next
    (.next reachable_twoJoined (.finish rfl (outcome_eq_of_result rfl))) (.enter launch .empty))
    (.send (List.Perm.refl _))) .take) (.fail rfl _)) (.clear rfl rfl)

theorem lossless_twoJoined_thirdDropped :
    Lossless twoJoined ∧ twoJoined.joinings.map Joining.leader = [0, 0] ∧
      Lossless thirdDropped ∧ thirdDropped.dispatcher.answers =
        [(0, some (.outcome (.eventNotFound "launch"))),
         (1, some (.outcome (.eventNotFound "launch"))), (2, none)] :=
  ⟨lossless_of_reachable reachable_twoJoined, rfl, lossless_of_reachable reachable_thirdDropped,
    rfl⟩

end Traffic
end Placement
