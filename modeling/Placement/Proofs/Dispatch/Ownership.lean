import Placement.Proofs.Dispatch.Accounts
/-! # Every key in flight has one owner

While the worker runs, **every key in flight is owned by exactly one request**, whose job
is still to be sent, on the queue or with the worker (`Owned`).  The owner is the caller
that started the evaluation.
-/
namespace Placement
namespace Traffic
open Dispatcher Attempt
variable {t u : Traffic} {request : Request} {others : List Request} {command : Command}
  {caller leader : Caller} {key : RequestKey} {job : Job}

/-- **Every key in flight has one owner**: the caller that started its evaluation. -/
structure Owned (t : Traffic) : Prop where
  distinct : t.dispatcher.isRunning = true → (t.owners.map Prod.snd).Nodup
  leads : t.dispatcher.isRunning = true →
    ∀ caller key, (caller, key) ∈ t.owners ↔ t.dispatcher.inFlight.Leads caller key

/-- Another state with the same owners and the same entries of the table. -/
theorem Owned.congr (h : Owned t)
    (hrunning : u.dispatcher.isRunning = true → t.dispatcher.isRunning = true)
    (howners : u.dispatcher.isRunning = true → u.owners.Perm t.owners)
    (hinFlight : u.dispatcher.inFlight = t.dispatcher.inFlight) : Owned u where
  distinct hr := ((howners hr).map Prod.snd).nodup_iff.mpr (h.distinct (hrunning hr))
  leads hr caller key := by
    rw [(howners hr).mem_iff, hinFlight]
    exact h.leads (hrunning hr) caller key

theorem owned_of_ended (h : u.dispatcher.isRunning = false) : Owned u :=
  ⟨fun hr => Bool.noConfusion (h.symm.trans hr), fun hr => Bool.noConfusion (h.symm.trans hr)⟩

theorem Queued.length_le (h : Queued t) : t.done.length ≤ t.sent.length := by
  simpa using h.order.length_le

/-- The jobs that are pending are those on the queue or with the worker. -/
theorem Queued.jobs_pending (h : Queued t) (hr : t.dispatcher.isRunning = true) :
    t.pending.map Prod.snd = t.dispatcher.outstanding := by
  rw [pending, List.map_drop, h.sent_eq hr]
  exact List.drop_left' (List.length_map _)

/-- What is sent is pending at the end. -/
theorem pending_push (h : Queued t) {d : Dispatcher} {entry : Caller × Job} :
    pending { t with dispatcher := d, unsent := others, sent := t.sent ++ [entry] } =
      t.pending ++ [entry] :=
  List.drop_append_of_le_length h.length_le

/-- The job that the worker finishes is the first that is pending. -/
theorem Queued.pending_of_busy (h : Queued t) (hbusy : t.dispatcher.worker = .busy job)
    (reply : Reply) :
    ∃ caller, t.pending = (caller, job) :: (t.finish job reply).pending := by
  have hjobs := h.jobs_pending (isRunning_of_busy hbusy)
  rw [outstanding_of_busy hbusy] at hjobs
  obtain ⟨⟨caller, first⟩, rest, hpending, hfirst, -⟩ := List.map_eq_cons_iff.mp hjobs
  refine ⟨caller, ?_⟩
  have hrest : (t.finish job reply).pending = rest := by
    have hlength : (t.finish job reply).done.length = t.done.length + 1 := List.length_append
    rw [pending, hlength]
    show t.sent.drop (t.done.length + 1) = rest
    rw [← List.drop_drop, ← pending, hpending]
    rfl
  rw [hpending, hrest]
  exact congrArg (fun found => (caller, found) :: rest) hfirst

theorem unsent_enter_of_mem {event : Event} {rules : RuleSet}
    (hkey : .ofEvent event rules.generation ∈ t.dispatcher.inFlight.keys) :
    (t.enter event rules).unsent = t.unsent := by
  simp [enter, enterUnder, Waitlist.contains_iff.mpr hkey]

theorem unsent_enter_of_not_mem {event : Event} {rules : RuleSet}
    (hkey : .ofEvent event rules.generation ∉ t.dispatcher.inFlight.keys) :
    (t.enter event rules).unsent = t.unsent ++ [⟨t.dispatcher.nextCaller, event, rules⟩] := by
  simp [enter, enterUnder, Bool.eq_false_iff.mpr (mt Waitlist.contains_iff.mp hkey)]

theorem owned_start (engine : Engine) (rules : RuleSet) : Owned (start engine rules) :=
  ⟨fun _ => List.nodup_nil, fun _ _ _ => ⟨nofun, fun ⟨_, h⟩ => nomatch h⟩⟩

/-- Who joins an evaluation owns nothing. -/
theorem Owned.follow (h : Owned t) (hkeys : t.dispatcher.inFlight.keys.Nodup) {event : Event}
    {rules : RuleSet} {rest : List Caller}
    (hwaiting : t.dispatcher.inFlight.waiting (.ofEvent event rules.generation) = leader :: rest)
    (hkey : .ofEvent event rules.generation ∈ t.dispatcher.inFlight.keys) :
    Owned (t.enter event rules) := by
  have howners : (t.enter event rules).owners = t.owners := by
    rw [owners, unsent_enter_of_mem hkey]
    rfl
  refine ⟨fun hr => howners ▸ h.distinct hr, fun hr caller key => ?_⟩
  rw [howners]
  exact (h.leads hr caller key).trans (Waitlist.leads_join_of_waiting hkeys hwaiting hkey).symm

/-- The first with a request owns its key. -/
theorem Owned.lead (h : Owned t) (hkeys : t.dispatcher.inFlight.keys.Nodup) {event : Event}
    {rules : RuleSet} (hkey : .ofEvent event rules.generation ∉ t.dispatcher.inFlight.keys) :
    Owned (t.enter event rules) := by
  have howners : (t.enter event rules).owners.Perm
      ((t.dispatcher.nextCaller, .ofEvent event rules.generation) :: t.owners) := by
    rw [owners, unsent_enter_of_not_mem hkey, List.map_append, List.append_assoc]
    exact List.perm_middle
  refine ⟨fun hr => ?_, fun hr caller key => ?_⟩
  · refine (howners.map Prod.snd).nodup_iff.mpr (List.nodup_cons.mpr ⟨?_, h.distinct hr⟩)
    intro hmem
    obtain ⟨⟨caller, key⟩, howner, hsame⟩ := List.mem_map.mp hmem
    obtain ⟨rest, hentry⟩ := (h.leads hr caller key).mp howner
    have hkeys : key = .ofEvent event rules.generation := hsame
    exact hkey (hkeys ▸ Waitlist.mem_keys_of_mem hentry)
  · rw [howners.mem_iff, List.mem_cons, Prod.mk.injEq, h.leads hr]
    exact (Waitlist.leads_join_of_not_mem hkeys hkey).symm

/-- The worker finishes an evaluation, and its key has no owner any more. -/
theorem Owned.finish (h : Owned t) (hqueued : Queued t) {reply : Reply} {engine : Engine}
    (hbusy : t.dispatcher.worker = .busy job)
    (hrun : job.run.outcome t.dispatcher.engine = (.ok reply, engine)) :
    Owned (t.finish job reply) := by
  have hr := isRunning_of_busy hbusy
  obtain ⟨caller, hpending⟩ := hqueued.pending_of_busy hbusy reply
  have hinFlight : (t.finish job reply).dispatcher.inFlight = job.leave t.dispatcher.inFlight := by
    rw [Traffic.finish, finish_of_busy hbusy hrun]
  cases job with
  | single asking command =>
      refine h.congr (fun _ => hr) (fun _ => List.Perm.of_eq ?_) hinFlight
      rw [owners, owners, hpending]
      rfl
  | shared key event rules =>
      have howners :
          t.owners.Perm ((caller, key) :: (t.finish (.shared key event rules) reply).owners) := by
        rw [owners, hpending]
        exact List.perm_middle
      have hdistinct := (howners.map Prod.snd).nodup_iff.mp (h.distinct hr)
      rw [List.map_cons, List.nodup_cons] at hdistinct
      refine ⟨fun _ => hdistinct.2, fun _ other found => ?_⟩
      rw [hinFlight]
      refine Iff.trans ?_ Waitlist.leads_remove.symm
      rw [← h.leads hr, howners.mem_iff, List.mem_cons]
      constructor
      · intro howner
        have hmem : found ∈ (t.finish (.shared key event rules) reply).owners.map Prod.snd :=
          List.mem_map_of_mem (f := Prod.snd) howner
        exact ⟨.inr howner, fun he => hdistinct.1 (he ▸ hmem)⟩
      · rintro ⟨heq | howner, hne⟩
        · exact absurd (congrArg Prod.snd heq) hne
        · exact howner

theorem Owned.step (h : Owned t) (hqueued : Queued t) (haccounted : Accounted t.dispatcher)
    (hfilled : ∀ entry ∈ t.dispatcher.inFlight, entry.2 ≠ []) (hs : Step t u) : Owned u := by
  cases hs with
  | enter event rules =>
      by_cases hkey : .ofEvent event rules.generation ∈ t.dispatcher.inFlight.keys
      · obtain ⟨leader, rest, hwaiting⟩ := List.exists_cons_of_ne_nil
          (hfilled _ (Waitlist.mem_of_mem_keys haccounted.keys hkey))
        exact h.follow haccounted.keys hwaiting hkey
      · exact h.lead haccounted.keys hkey
  | @send request others hunsent =>
      cases hr : t.dispatcher.isRunning with
      | true =>
          rw [send_of_running hr]
          refine h.congr (fun _ => hr) (fun _ => ?_) rfl
          rw [owners, owners, pending_push hqueued, List.filterMap_append]
          have hmoved := hunsent.map fun request => (request.caller, request.key)
          refine List.Perm.trans ?_ (hmoved.append_right _).symm
          exact (List.append_assoc _ _ _) ▸ List.perm_append_singleton _ _
      | false =>
          rw [send_of_ended hr]
          exact owned_of_ended hr
  | withdraw hrefused =>
      -- Nothing is refused as long as the worker runs.
      refine owned_of_ended (Bool.eq_false_iff.mpr fun hr => ?_)
      rw [hqueued.refused hr] at hrefused
      exact absurd hrefused.length_eq (by simp)
  | ask command =>
      cases hr : t.dispatcher.isRunning with
      | true =>
          rw [ask_of_running hr]
          refine h.congr (fun _ => hr) (fun _ => List.Perm.of_eq ?_) rfl
          rw [owners, owners, pending_push hqueued, List.filterMap_append]
          exact congrArg _ (List.append_nil _)
      | false =>
          refine owned_of_ended ?_
          rw [ask_of_ended hr]
          exact hr
  | take =>
      obtain ⟨-, hrunning, hinFlight, -⟩ := take_spec (d := t.dispatcher)
      exact h.congr (fun hr => hrunning ▸ hr) (fun _ => List.Perm.refl _) hinFlight
  | finish hbusy hrun => exact h.finish hqueued hbusy hrun
  | fail hbusy engine => exact owned_of_ended rfl
  | close => exact h.congr id (fun _ => List.Perm.refl _) rfl
  | stop hidle hqueue hclosed => exact owned_of_ended rfl
  | clear hended hcleared =>
      refine owned_of_ended ?_
      rw [clear, clear_of_ended hended]
      exact hended

/-- While the worker does an evaluation, its key is in flight, with the caller that sent it
in front of those that wait. -/
theorem Owned.entry_of_busy (h : Owned t) (hqueued : Queued t) {event : Event} {rules : RuleSet}
    (hbusy : t.dispatcher.worker = .busy (.shared key event rules)) (reply : Reply) :
    ∃ leader rest, t.pending =
        (leader, .shared key event rules) :: (t.finish (.shared key event rules) reply).pending ∧
      (key, leader :: rest) ∈ t.dispatcher.inFlight := by
  obtain ⟨leader, hpending⟩ := hqueued.pending_of_busy hbusy reply
  have howner : (leader, key) ∈ t.owners := by
    rw [owners, hpending]
    exact List.mem_append_right _ List.mem_cons_self
  obtain ⟨rest, hentry⟩ := (h.leads (isRunning_of_busy hbusy) leader key).mp howner
  exact ⟨leader, rest, hpending, hentry⟩

end Traffic
end Placement
