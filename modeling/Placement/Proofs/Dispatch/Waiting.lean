import Mathlib.Data.List.Nodup
import Placement.Waitlist
/-! # Who waits, and for what

What joining and leaving do to the evaluations in flight.  An entry of the table is one
evaluation with its callers, the one that started it in front (`Waitlist.Leads`).  **As
long as no key stands twice, joining changes the entry of its key only, and the callers
that leave with a key are those that waited for it.**
-/
namespace Placement.Waitlist

variable {table : Waitlist} {key other : RequestKey} {caller first : Caller}

theorem contains_iff : table.contains key = true ↔ key ∈ table.keys := by
  simp [contains, keys]

theorem mem_keys_of_mem {entry : RequestKey × List Caller} (h : entry ∈ table) :
    entry.1 ∈ table.keys :=
  List.mem_map_of_mem h

theorem mem_callers : caller ∈ table.callers ↔ ∃ entry ∈ table, caller ∈ entry.2 :=
  List.mem_flatMap

/-! ## Waiting -/

theorem waiting_cons (entry : RequestKey × List Caller) (rest : Waitlist) :
    waiting (entry :: rest) key = if entry.1 = key then entry.2 else waiting rest key := by
  obtain ⟨found, callers⟩ := entry
  by_cases h : found = key
  · simp [waiting, h]
  · have hne : (key == found) = false := beq_eq_false_iff_ne.mpr (Ne.symm h)
    simp [waiting, List.lookup_cons, h, hne]

theorem waiting_eq_nil (h : key ∉ table.keys) : table.waiting key = [] := by
  induction table with
  | nil => rfl
  | cons entry rest ih =>
      simp only [keys, List.map_cons, List.mem_cons, not_or] at h
      rw [waiting_cons, if_neg (Ne.symm h.1)]
      exact ih h.2

theorem waiting_eq_of_mem {callers : List Caller} (hkeys : table.keys.Nodup)
    (h : (key, callers) ∈ table) : table.waiting key = callers := by
  induction table with
  | nil => cases h
  | cons entry rest ih =>
      rw [keys, List.map_cons, List.nodup_cons] at hkeys
      rw [waiting_cons]
      rcases List.mem_cons.mp h with rfl | hrest
      · exact if_pos rfl
      · have hne : entry.1 ≠ key := fun he => hkeys.1 (he ▸ mem_keys_of_mem hrest)
        rw [if_neg hne]
        exact ih hkeys.2 hrest

theorem mem_of_mem_keys (hkeys : table.keys.Nodup) (h : key ∈ table.keys) :
    (key, table.waiting key) ∈ table := by
  obtain ⟨⟨found, callers⟩, hmem, rfl⟩ := List.mem_map.mp h
  rw [waiting_eq_of_mem hkeys hmem]
  exact hmem

theorem nodup_of_mem {callers : List Caller} (hcallers : table.callers.Nodup)
    (h : (key, callers) ∈ table) : callers.Nodup :=
  (List.nodup_flatMap.mp hcallers).1 _ h

/-- Who waits once waits in one entry. -/
theorem filter_callers {callers : List Caller} (hcallers : table.callers.Nodup)
    (h : (key, callers) ∈ table) (hcaller : caller ∈ callers) :
    table.filter (fun entry => caller ∈ entry.2) = [(key, callers)] := by
  induction table with
  | nil => cases h
  | cons entry rest ih =>
      obtain ⟨-, hrest, hdisjoint⟩ := List.nodup_append.mp hcallers
      rcases List.mem_cons.mp h with rfl | hmem
      · have hnone : rest.filter (fun entry => caller ∈ entry.2) = [] := by
          refine List.filter_eq_nil_iff.mpr fun other hother hwaits => ?_
          exact hdisjoint caller hcaller caller
            (mem_callers.mpr ⟨other, hother, of_decide_eq_true hwaits⟩) rfl
        simp only [List.filter_cons, hcaller, hnone, decide_true, if_true]
      · have hnot : caller ∉ entry.2 := fun hwaits =>
          hdisjoint caller hwaits caller (mem_callers.mpr ⟨_, hmem, hcaller⟩) rfl
        simp only [List.filter_cons, hnot, decide_false, Bool.false_eq_true, if_false]
        exact ih hrest hmem

/-! ## Joining -/

theorem keys_join_of_mem (h : key ∈ table.keys) : (table.join key caller).keys = table.keys := by
  induction table with
  | nil => cases h
  | cons entry rest ih =>
      rw [join]
      by_cases hkey : entry.1 = key
      · rw [if_pos hkey]
        exact congrArg (· :: keys rest) hkey.symm
      · rw [if_neg hkey]
        have hrest : key ∈ keys rest := (List.mem_cons.mp h).resolve_left (Ne.symm hkey)
        exact congrArg (entry.1 :: ·) (ih hrest)

theorem keys_join_of_not_mem (h : key ∉ table.keys) :
    (table.join key caller).keys = table.keys ++ [key] := by
  induction table with
  | nil => rfl
  | cons entry rest ih =>
      simp only [keys, List.map_cons, List.mem_cons, not_or] at h
      rw [join, if_neg (Ne.symm h.1)]
      exact congrArg (entry.1 :: ·) (ih h.2)

theorem nodup_keys_join (hkeys : table.keys.Nodup) : (table.join key caller).keys.Nodup := by
  by_cases h : key ∈ table.keys
  · rwa [keys_join_of_mem h]
  · rw [keys_join_of_not_mem h, ← List.concat_eq_append]
    exact hkeys.concat h

/-- Who joins comes last among those that wait for the key. -/
theorem mem_join (hkeys : table.keys.Nodup) {entry : RequestKey × List Caller} :
    entry ∈ table.join key caller ↔
      entry = (key, table.waiting key ++ [caller]) ∨ entry ∈ table ∧ entry.1 ≠ key := by
  induction table with
  | nil => simp [join, waiting]
  | cons head rest ih =>
      rw [keys, List.map_cons, List.nodup_cons] at hkeys
      rw [join, waiting_cons]
      by_cases hkey : head.1 = key
      · have hrest : ∀ e ∈ rest, e.1 ≠ key := fun e he heq =>
          hkeys.1 (hkey.trans heq.symm ▸ mem_keys_of_mem he)
        rw [if_pos hkey, if_pos hkey, List.mem_cons, List.mem_cons]
        constructor
        · rintro (rfl | he)
          · exact .inl rfl
          · exact .inr ⟨.inr he, hrest _ he⟩
        · rintro (rfl | ⟨rfl | he, hne⟩)
          · exact .inl rfl
          · exact absurd hkey hne
          · exact .inr he
      · rw [if_neg hkey, if_neg hkey, List.mem_cons, List.mem_cons, ih hkeys.2]
        constructor
        · rintro (rfl | rfl | ⟨he, hne⟩)
          · exact .inr ⟨.inl rfl, hkey⟩
          · exact .inl rfl
          · exact .inr ⟨.inr he, hne⟩
        · rintro (rfl | ⟨rfl | he, hne⟩)
          · exact .inr (.inl rfl)
          · exact .inl rfl
          · exact .inr (.inr ⟨he, hne⟩)

theorem waiting_join (hkeys : table.keys.Nodup) :
    (table.join key caller).waiting key = table.waiting key ++ [caller] :=
  waiting_eq_of_mem (nodup_keys_join hkeys) ((mem_join hkeys).mpr (.inl rfl))

theorem callers_join : (table.join key caller).callers.Perm (table.callers ++ [caller]) := by
  induction table with
  | nil => exact List.Perm.refl _
  | cons entry rest ih =>
      rw [join]
      split
      · have hmove : (caller :: callers rest).Perm (callers rest ++ [caller]) :=
          (List.perm_append_singleton caller (callers rest)).symm
        simpa [callers] using hmove.append_left entry.2
      · simpa [callers] using ih.append_left entry.2

/-! ## Leaving -/

theorem mem_remove {entry : RequestKey × List Caller} :
    entry ∈ table.remove key ↔ entry ∈ table ∧ entry.1 ≠ key := by
  simp [remove]

theorem nodup_keys_remove (hkeys : table.keys.Nodup) : (table.remove key).keys.Nodup :=
  hkeys.sublist (List.filter_sublist.map Prod.fst)

theorem mem_keys_remove : other ∈ (table.remove key).keys ↔ other ∈ table.keys ∧ other ≠ key := by
  simp only [keys, List.mem_map, mem_remove]
  grind

/-- Who waits for a key leaves with it, and nobody else. -/
theorem callers_remove (hkeys : table.keys.Nodup) :
    (table.waiting key ++ (table.remove key).callers).Perm table.callers := by
  induction table with
  | nil => exact List.Perm.refl _
  | cons entry rest ih =>
      rw [keys, List.map_cons, List.nodup_cons] at hkeys
      have hrest := ih hkeys.2
      rw [waiting_cons]
      by_cases hkey : entry.1 = key
      · rw [waiting_eq_nil (hkey ▸ hkeys.1)] at hrest
        simpa [hkey, remove, callers] using hrest.append_left entry.2
      · have hmove : (waiting rest key ++ (entry.2 ++ callers (remove rest key))).Perm
            (entry.2 ++ (waiting rest key ++ callers (remove rest key))) :=
          List.perm_append_comm_assoc _ _ _
        simpa [hkey, remove, callers] using hmove.trans (hrest.append_left entry.2)

/-! ## Leading -/

/-- **The caller that started the evaluation of a key** that is in flight: the first that
waits for it. -/
def Leads (table : Waitlist) (caller : Caller) (key : RequestKey) : Prop :=
  ∃ rest, (key, caller :: rest) ∈ table

theorem leads_remove :
    (table.remove key).Leads first other ↔ table.Leads first other ∧ other ≠ key := by
  simp only [Leads, mem_remove]
  grind

/-- Who joins an evaluation in flight leads nothing new. -/
theorem leads_join_of_waiting (hkeys : table.keys.Nodup) {rest : List Caller} {leader : Caller}
    (h : table.waiting key = leader :: rest) (hkey : key ∈ table.keys) :
    (table.join key caller).Leads first other ↔ table.Leads first other := by
  have hmem : (key, leader :: rest) ∈ table := h ▸ mem_of_mem_keys hkeys hkey
  simp only [Leads, mem_join hkeys, h]
  constructor
  · rintro ⟨others, heq | ⟨hentry, -⟩⟩
    · obtain ⟨rfl, hcallers⟩ := Prod.mk.inj heq
      obtain ⟨rfl, -⟩ := List.cons.inj hcallers
      exact ⟨rest, hmem⟩
    · exact ⟨others, hentry⟩
  · rintro ⟨others, hentry⟩
    by_cases hother : other = key
    · subst hother
      have hsame : first :: others = leader :: rest :=
        (waiting_eq_of_mem hkeys hentry).symm.trans h
      obtain ⟨rfl, -⟩ := List.cons.inj hsame
      exact ⟨rest ++ [caller], .inl rfl⟩
    · exact ⟨others, .inr ⟨hentry, hother⟩⟩

/-- Who is the first to ask for a key leads its evaluation. -/
theorem leads_join_of_not_mem (hkeys : table.keys.Nodup) (h : key ∉ table.keys) :
    (table.join key caller).Leads first other ↔
      first = caller ∧ other = key ∨ table.Leads first other := by
  simp only [Leads, mem_join hkeys, waiting_eq_nil h, List.nil_append]
  constructor
  · rintro ⟨others, heq | ⟨hentry, -⟩⟩
    · obtain ⟨rfl, hcallers⟩ := Prod.mk.inj heq
      exact .inl ⟨(List.cons.inj hcallers).1, rfl⟩
    · exact .inr ⟨others, hentry⟩
  · rintro (⟨rfl, rfl⟩ | ⟨others, hentry⟩)
    · exact ⟨[], .inl rfl⟩
    · exact ⟨others, .inr ⟨hentry, fun he => h (he ▸ mem_keys_of_mem hentry)⟩⟩

end Placement.Waitlist
