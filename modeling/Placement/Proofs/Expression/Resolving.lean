import Placement.Proofs.Expression.Asking
/-! # Asking first

What the engine collects before it asks, and what it finds when it looks an answer up.  **A
call whose arguments hold no undefined double finds the answer to an equal call that was
collected; one whose arguments hold one finds nothing**, because it equals no call.
-/
namespace Placement

namespace HostCall
variable {ctx : Context} {found others : List (String × List Expression)}
  {calls collected : List HostCall} {call known : HostCall} {f : HostCall → Value}

/-! ## Collecting -/

/-- What is collected comes behind what was collected before; every call that was found can
be evaluated, and unless an undefined double is in it, an equal one was collected. -/
theorem collect_ok (h : collect ctx found calls = .ok collected) :
    calls <+: collected ∧ ∀ name args, (name, args) ∈ found →
      ∃ call, evaluate ctx name args = .ok call ∧
        (call.isUndefined = false → ∃ known ∈ collected, known.same call = true) := by
  induction found generalizing calls with
  | nil =>
      cases h
      exact ⟨List.prefix_refl _, fun _ _ hmem => absurd hmem List.not_mem_nil⟩
  | cons node rest ih =>
      obtain ⟨name, args⟩ := node
      obtain ⟨call, hcall, h⟩ := exists_of_bind_eq_ok h
      obtain ⟨hkept, hrest⟩ := ih h
      -- Either an equal call is known already, or this one is added; both stay to the end.
      cases hknown : calls.any fun earlier => earlier.same call with
      | true =>
          rw [if_pos hknown] at hkept
          obtain ⟨known, hmem, hsame⟩ := List.any_eq_true.mp hknown
          refine ⟨hkept, fun other others hother => ?_⟩
          rcases List.mem_cons.mp hother with heq | hlater
          · cases heq
            exact ⟨call, hcall, fun _ => ⟨known, hkept.subset hmem, hsame⟩⟩
          · exact hrest other others hlater
      | false =>
          rw [if_neg (Bool.eq_false_iff.mp hknown)] at hkept
          refine ⟨(List.prefix_append calls [call]).trans hkept, fun other others hother => ?_⟩
          rcases List.mem_cons.mp hother with heq | hlater
          · cases heq
            have hmem := hkept.subset (List.mem_append_right calls List.mem_cons_self)
            exact ⟨call, hcall, fun hdefined => ⟨call, hmem, same_self_iff.mpr hdefined⟩⟩
          · exact hrest other others hlater

theorem collect_append : collect ctx (found ++ others) calls =
    collect ctx found calls >>= collect ctx others := by
  induction found generalizing calls with
  | nil => rfl
  | cons node rest ih =>
      rw [List.cons_append, collect, collect]
      cases evaluate ctx node.1 node.2 with
      | error fault => rfl
      | ok call => exact ih

/-- What was collected before makes no difference to whether calls can be collected, nor to
what goes wrong. -/
theorem collect_eq_error_iff {fault : Fault} {before : List HostCall} :
    collect ctx found calls = .error fault ↔ collect ctx found before = .error fault := by
  induction found generalizing calls before with
  | nil => exact ⟨nofun, nofun⟩
  | cons node rest ih =>
      rw [collect, collect]
      cases evaluate ctx node.1 node.2 with
      | error fault => exact Iff.rfl
      | ok call => exact ih

theorem collect_of_collect (h : collect ctx found calls = .ok collected) (before : List HostCall) :
    ∃ after, collect ctx found before = .ok after := by
  cases hafter : collect ctx found before with
  | ok after => exact ⟨after, rfl⟩
  | error fault =>
      rw [collect_eq_error_iff.mp hafter] at h
      cases h

/-- Nothing is collected only if nothing is found. -/
theorem found_eq_nil (h : collect ctx found [] = .ok []) : found = [] := by
  cases found with
  | nil => rfl
  | cons node rest =>
      obtain ⟨call, -, h⟩ := exists_of_bind_eq_ok h
      have hkept : [call] <+: [] := (collect_ok h).1
      exact absurd hkept.length_le (by simp)

/-! ## Looking an answer up -/

theorem resolve_pure {m : Type → Type} [Monad m] [LawfulMonad m] :
    resolve (fun call => (pure (f call) : m Value)) calls =
      pure (calls.map fun call => (call, f call)) := by
  induction calls with
  | nil => rfl
  | cons call rest ih => rw [resolve, pure_bind, ih, pure_bind, List.map_cons]

theorem answer_map : answer (calls.map fun call => (call, f call)) call =
    match calls.find? (fun known => known.same call) with
    | some known => f known
    | none => .bool false := by
  rw [answer, List.find?_map]
  cases hfind : calls.find? ((fun entry : HostCall × Value => entry.1.same call) ∘
      fun call => (call, f call)) with
  | none =>
      have hnone : calls.find? (fun known => known.same call) = none := hfind
      rw [hnone]
      rfl
  | some known =>
      have hsome : calls.find? (fun known => known.same call) = some known := hfind
      rw [hsome]
      rfl

/-- A call that an undefined double spoils equals no call. -/
theorem find?_of_isUndefined (h : call.isUndefined = true) :
    calls.find? (fun known => known.same call) = none := by
  refine List.find?_eq_none.mpr fun known _ hsame => ?_
  rw [same_self_iff.mp (same_self_of_same hsame)] at h
  cases h

end HostCall

/-! ## Hosts -/

/-- **A host**: what it answers to each call.  The maps in its answers are in order, as in
every value. -/
structure Host where
  answer : HostCall → Value
  canonical : ∀ call, (answer call).Canonical

namespace Host
variable {host : Host} {calls : List HostCall} {call : HostCall}

/-- The host answers equal calls alike. -/
def Respects (host : Host) : Prop :=
  ∀ known call : HostCall, known.same call = true → host.answer known = host.answer call

/-- The answer to a call, as the engine finds it: `false` if its arguments hold an undefined
double, which equals nothing. -/
def reply (host : Host) (call : HostCall) : Value :=
  if call.isUndefined then .bool false else host.answer call

/-- What the host answers to some calls. -/
def resolved (host : Host) (calls : List HostCall) : List (HostCall × Value) :=
  calls.map fun call => (call, host.answer call)

theorem canonical_reply : (host.reply call).Canonical := by
  rw [reply]
  split
  · trivial
  · exact host.canonical call

theorem canonical_answer : (HostCall.answer (host.resolved calls) call).Canonical := by
  refine Expression.canonical_answer (fun entry hentry => ?_) call
  obtain ⟨known, -, rfl⟩ := List.mem_map.mp hentry
  exact host.canonical known

/-- What is found for a call of which an equal one was collected is the answer to it. -/
theorem answer_resolved (hrespects : host.Respects)
    (hcollected : call.isUndefined = false → ∃ known ∈ calls, known.same call = true) :
    HostCall.answer (host.resolved calls) call = host.reply call := by
  rw [resolved, HostCall.answer_map, reply]
  cases hdefined : call.isUndefined with
  | true =>
      rw [HostCall.find?_of_isUndefined hdefined]
      rfl
  | false =>
      cases hfind : calls.find? (fun known => known.same call) with
      | none =>
          obtain ⟨known, hmem, hsame⟩ := hcollected hdefined
          exact absurd hsame (List.find?_eq_none.mp hfind known hmem)
      | some known =>
          have hsame := List.find?_some hfind
          exact hrespects known call hsame

end Host
end Placement
