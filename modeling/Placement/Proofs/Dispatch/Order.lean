import Placement.Proofs.Dispatch.Coalescing
/-! # Whether a reply takes account of a command

The worker does what was sent in the order in which it was sent.  So an evaluation that a
caller starts itself comes after every command that was sent before.  **A caller that joins
an evaluation gets what that one finds**, and it finds the changes of a command exactly if it
was itself sent after the command: when the caller came does not matter.
-/
namespace Placement
namespace Traffic
open Dispatcher Attempt
variable {t : Traffic} {engine : Engine} {rules : RuleSet} {asker leader : Caller}
  {joining : Joining} {run : Completion} {earlier later : List Completion} {command : Command}
  {job : Job} {reply : Reply}

/-- One entry was put on the queue before another. -/
def SentBefore (t : Traffic) (first second : Caller × Job) : Prop :=
  ∃ before after, t.sent = before ++ second :: after ∧ first ∈ before

/-- What was sent before a job that is done are the jobs that were done before it. -/
theorem Ordered.split (h : Ordered t) (hdone : t.done = earlier ++ run :: later)
    (hleader : run.callers.head? = some leader) :
    ∃ before after, t.sent = before ++ (leader, run.job) :: after ∧
      before.map (fun entry => (some entry.1, entry.2)) =
        earlier.map fun run => (run.callers.head?, run.job) := by
  have hsent := h.sent_eq
  rw [hdone, List.map_append, List.map_cons, List.append_assoc, List.cons_append, hleader]
    at hsent
  obtain ⟨before, rest, hsplit, hbefore, hrest⟩ := List.map_eq_append_iff.mp hsent
  obtain ⟨⟨caller, job⟩, after, rfl, heq, -⟩ := List.map_eq_cons_iff.mp hrest
  cases heq
  exact ⟨before, after, hsplit, hbefore⟩

/-- **A command was done before a job exactly if it was sent before it.** -/
theorem Ordered.mem_earlier_iff (h : Ordered t) (hdone : t.done = earlier ++ run :: later)
    (hleader : run.callers.head? = some leader) :
    .single asker command ∈ earlier.map Completion.job ↔
      SentBefore t (asker, .single asker command) (leader, run.job) := by
  obtain ⟨before, after, hsent, hbefore⟩ := h.split hdone hleader
  have hjobs : earlier.map Completion.job = before.map Prod.snd := by
    have hsnd := congrArg (List.map Prod.snd) hbefore
    rw [List.map_map, List.map_map] at hsnd
    exact hsnd.symm
  rw [hjobs]
  constructor
  · intro hmem
    obtain ⟨⟨caller, _⟩, hentry, rfl⟩ := List.mem_map.mp hmem
    have hown : caller = asker := h.own _ (hsent ▸ List.mem_append_left _ hentry) _ _ rfl
    exact ⟨before, after, hsent, hown ▸ hentry⟩
  · rintro ⟨others, rest, hother, hmem⟩
    -- No caller sends two jobs, so what was sent before the job is determined.
    have hdistinct : t.sent.Nodup := (List.nodup_append.mp h.distinct).2.1.of_map Prod.fst
    rw [hsent, List.nodup_middle, List.nodup_cons, List.mem_append, not_or] at hdistinct
    obtain ⟨⟨hbefore, hafter⟩, -⟩ := hdistinct
    have hsame := (List.append_cons_inj_of_notMem hbefore hafter).mp (hsent.symm.trans hother)
    exact List.mem_map_of_mem (f := Prod.snd) (hsame.1 ▸ hmem)

/-- A command that came before a request was sent before its job. -/
theorem Ordered.sentBefore (h : Ordered t) (hsent : (asker, .single asker command) ∈ t.sent)
    (hjob : (leader, job) ∈ t.sent) (hkey : job.key? ≠ none) (hlater : asker < leader) :
    SentBefore t (asker, .single asker command) (leader, job) := by
  obtain ⟨before, after, hsplit⟩ := List.append_of_mem hjob
  refine ⟨before, after, hsplit, ?_⟩
  rw [hsplit] at hsent
  rcases List.mem_append.mp hsent with hbefore | hrest
  · exact hbefore
  · have hcommands := h.commands
    rw [hsplit, List.pairwise_append, List.pairwise_cons] at hcommands
    rcases List.mem_cons.mp hrest with heq | hafter
    · cases heq
      exact absurd rfl hkey
    · exact absurd (hcommands.2.1.1 _ hafter rfl) (Nat.lt_asymm hlater)

/-- **The reply to a caller that comes after a command takes account of the command exactly if
the evaluation that it joined was sent after the command**, which is so if the caller started
the evaluation itself, or whoever started it came after the command too. -/
theorem reply_follows_command_iff (h : Reachable engine rules t) (hjoining : joining ∈ t.joinings)
    (hreply : t.dispatcher.answer? joining.caller = some (some reply))
    (hsent : (asker, .single asker command) ∈ t.sent) (hlater : asker < joining.caller) :
    ∃ earlier run later, t.done = earlier ++ run :: later ∧
      run.job.key? = some joining.key ∧ joining.caller ∈ run.callers ∧ run.reply = reply ∧
      run.before = replay engine.reopen (earlier.map Completion.job) ∧
      (run.job.run.outcome run.before).1 = .ok reply ∧
      (.single asker command ∈ earlier.map Completion.job ↔
        SentBefore t (asker, .single asker command) (joining.leader, run.job)) ∧
      (joining.leader = joining.caller ∨ asker < joining.leader →
        .single asker command ∈ earlier.map Completion.job) := by
  have hsound := sound_of_reachable h
  obtain ⟨run, hrun, hkey, -, hsame, hleader, hcaller⟩ := replied_by hsound hjoining hreply
  obtain ⟨earlier, later, hdone⟩ := List.append_of_mem hrun
  obtain ⟨hbefore, hran⟩ := hsound.replayed.runs earlier run later hdone
  have hiff : .single asker command ∈ earlier.map Completion.job ↔ _ :=
    hsound.ordered.mem_earlier_iff hdone hleader
  refine ⟨earlier, run, later, hdone, hkey, hcaller, hsame, hbefore, hsame ▸ hran, hiff, ?_⟩
  intro hlate
  have hlead : asker < joining.leader := hlate.elim (fun he => he ▸ hlater) id
  exact hiff.mpr (hsound.ordered.sentBefore hsent (hsound.ordered.mem_sent hrun hleader)
    (by rw [hkey]; exact nofun) hlead)

/-! ## A run -/

/-- The variant that the user was assigned to. -/
def gold : Variant := ⟨"gold", .treatment, some "gold"⟩

/-- A rule that has no variants any more. -/
def retired : Rule := .unconditional "upgrade" "plans" []

/-- The rules for a launch. -/
def retiredRules : RuleSet := ⟨0, Dict.ofList [(launch.name, [retired])]⟩

/-- An engine whose user keeps a variant of the rule. -/
def assigned : Engine :=
  engineOver (Dict.ofList [(Key.confirmedAssignments.name, .object [("upgrade", gold.toJson)])])

/-- A caller asks for a launch, another one resets the user, and a third one asks for a launch
before the worker has begun. -/
def overtaken : Traffic :=
  (((((((start assigned retiredRules).enter launch retiredRules).send
    ⟨0, launch, retiredRules⟩ []).ask .reset).enter launch retiredRules).take.finish
      (Request.job ⟨0, launch, retiredRules⟩) (.outcome (.matched retired gold))).take.finish
        (.single 1 .reset) .done)

theorem reachable_overtaken : Reachable assigned retiredRules overtaken :=
  .next (.next (.next (.next (.next (.next (.next (.next .start
    (.enter launch retiredRules)) (.send (List.Perm.refl _))) (.ask .reset))
    (.enter launch retiredRules)) .take) (.finish rfl (outcome_eq_of_result rfl))) .take)
    (.finish rfl (outcome_eq_of_result rfl))

/-- The third caller gets the variant of the user that was reset before it came; after the
reset, there is none. -/
theorem overtaken_reply_precedes_reset :
    (1, Job.single 1 .reset) ∈ overtaken.sent ∧
    ∃ earlier run later, overtaken.done = earlier ++ run :: later ∧ 2 ∈ run.callers ∧
      run.reply = .outcome (.matched retired gold) ∧
      Job.single 1 .reset ∉ earlier.map Completion.job ∧
      ((Request.job ⟨2, launch, retiredRules⟩).run.outcome overtaken.dispatcher.engine).1 =
        .ok (.outcome (.failed .noVariants)) := by
  have hsent : (1, Job.single 1 .reset) ∈ overtaken.sent :=
    List.mem_cons_of_mem _ List.mem_cons_self
  have hjoining : ⟨2, .ofEvent launch 0, 0⟩ ∈ overtaken.joinings :=
    List.mem_cons_of_mem _ List.mem_cons_self
  obtain ⟨earlier, run, later, hdone, -, hcaller, hreply, -, -, hiff, -⟩ :=
    reply_follows_command_iff reachable_overtaken hjoining rfl hsent (by decide)
  refine ⟨hsent, earlier, run, later, hdone, hcaller, hreply, fun hmem => ?_, rfl⟩
  obtain ⟨before, after, hsplit, hbefore⟩ := hiff.mp hmem
  -- The job is the first on the queue, so nothing was sent before it.
  have hcallers : [0, 1] = (before ++ (0, run.job) :: after).map Prod.fst :=
    congrArg (List.map Prod.fst) hsplit
  rw [List.map_append, List.map_cons] at hcallers
  cases before with
  | nil => cases hbefore
  | cons entry others =>
      obtain ⟨-, hrest⟩ := List.cons.inj hcallers
      have hmem0 : 0 ∈ [1] := hrest ▸ List.mem_append_right _ List.mem_cons_self
      exact absurd hmem0 (by decide)

end Traffic
end Placement
