import Placement.Proofs.Expression.Literals
/-! # Equal calls

The equality of values is that of doubles, carried through lists and maps: an undefined double
equals nothing, and the two zeros are equal.  So it is not the equality of contents and not
even reflexive, but **it is symmetric and transitive** (`HostCall.same_symm`,
`HostCall.same_trans`), which is what the collecting of distinct calls rests on.
-/
namespace Placement
open Float.Model

/-! ## Doubles -/

/-- What equal doubles are: a defined double is equal to itself, and a zero to any zero. -/
inductive SameNumber : UnpackedFloat → UnpackedFloat → Prop
  | infinity (s) : SameNumber (.infinity s) (.infinity s)
  | zero (s t) : SameNumber (.zero s) (.zero t)
  | finite (s m e h) : SameNumber (.finite s m e h) (.finite s m e h)

theorem size_eq_iff {e f : Int} {m n : Nat} :
    (compare e f).then (compare m n) = .eq ↔ e = f ∧ m = n := by
  rw [Ordering.then_eq_eq, Std.LawfulEqCmp.compare_eq_iff_eq, Std.LawfulEqCmp.compare_eq_iff_eq]

theorem sameNumber_of_beq {u v : UnpackedFloat} (h : u.beq v = true) : SameNumber u v := by
  have horder : u.compare v = some .eq := eq_of_beq h
  cases u with
  | notANumber => cases v <;> cases horder
  | infinity s =>
      cases v with
      | infinity t => cases s <;> cases t <;> first | exact .infinity _ | cases horder
      | _ => cases s <;> cases horder
  | zero s =>
      cases v with
      | zero t => exact .zero s t
      | notANumber => cases horder
      | infinity t => cases t <;> cases horder
      | finite t => cases t <;> cases horder
  | finite s m e hm =>
      cases v with
      | notANumber => cases horder
      | infinity t => cases s <;> cases t <;> cases horder
      | zero t => cases s <;> cases horder
      | finite t n f hn =>
          cases s <;> cases t
          · have hsize := Option.some.inj horder
            rw [Ordering.swap_eq_eq] at hsize
            obtain ⟨rfl, rfl⟩ := size_eq_iff.mp hsize
            exact .finite _ _ _ _
          · cases horder
          · cases horder
          · obtain ⟨rfl, rfl⟩ := size_eq_iff.mp (Option.some.inj horder)
            exact .finite _ _ _ _

theorem beq_of_sameNumber {u v : UnpackedFloat} (h : SameNumber u v) : u.beq v = true := by
  cases h with
  | infinity s => cases s <;> rfl
  | zero s t => rfl
  | finite s m e hm =>
      have hsize : (compare e e).then (compare m m) = .eq := size_eq_iff.mpr ⟨rfl, rfl⟩
      cases s
      · exact congrArg (fun order => some order.swap == some Ordering.eq) hsize
      · exact congrArg (fun order => some order == some Ordering.eq) hsize

theorem SameNumber.symm {u v : UnpackedFloat} (h : SameNumber u v) : SameNumber v u := by
  cases h with
  | infinity s => exact .infinity s
  | zero s t => exact .zero t s
  | finite s m e hm => exact .finite s m e hm

theorem SameNumber.trans {u v w : UnpackedFloat} (h : SameNumber u v) (h' : SameNumber v w) :
    SameNumber u w := by
  cases h with
  | infinity s => exact h'
  | zero s t =>
      cases h' with
      | zero _ r => exact .zero s r
  | finite s m e hm => exact h'

theorem float_beq_iff {x y : Float} :
    (x == y) = true ↔ SameNumber x.toModel.unpack y.toModel.unpack :=
  ⟨sameNumber_of_beq, beq_of_sameNumber⟩

/-! ## Values -/

namespace Value

mutual

theorem same_symm : ∀ a b : Value, a.same b = true → b.same a = true
  | .null, .null, _ => rfl
  | .bool _, .bool _, h => BEq.symm h
  | .int _, .int _, h => BEq.symm h
  | .float _, .float _, h => float_beq_iff.mpr (float_beq_iff.mp h).symm
  | .string _, .string _, h => BEq.symm h
  | .list items, .list others, h => sameItems_symm items others h
  | .map entries, .map others, h => sameEntries_symm entries others h

theorem sameItems_symm : ∀ items others : List Value,
    sameItems items others = true → sameItems others items = true
  | [], [], _ => rfl
  | a :: items, b :: others, h => by
      rw [sameItems, Bool.and_eq_true] at h ⊢
      exact ⟨same_symm a b h.1, sameItems_symm items others h.2⟩

theorem sameEntries_symm : ∀ entries others : List (String × Value),
    sameEntries entries others = true → sameEntries others entries = true
  | [], [], _ => rfl
  | (_, a) :: entries, (_, b) :: others, h => by
      rw [sameEntries, Bool.and_eq_true, Bool.and_eq_true] at h ⊢
      exact ⟨⟨BEq.symm h.1.1, same_symm a b h.1.2⟩, sameEntries_symm entries others h.2⟩

end

mutual

theorem same_trans : ∀ a b c : Value, a.same b = true → b.same c = true → a.same c = true
  | .null, .null, .null, _, _ => rfl
  | .bool _, .bool _, .bool _, h, h' => eq_of_beq h ▸ h'
  | .int _, .int _, .int _, h, h' => eq_of_beq h ▸ h'
  | .float _, .float _, .float _, h, h' =>
      float_beq_iff.mpr ((float_beq_iff.mp h).trans (float_beq_iff.mp h'))
  | .string _, .string _, .string _, h, h' => eq_of_beq h ▸ h'
  | .list items, .list others, .list more, h, h' => sameItems_trans items others more h h'
  | .map entries, .map others, .map more, h, h' => sameEntries_trans entries others more h h'

theorem sameItems_trans : ∀ items others more : List Value,
    sameItems items others = true → sameItems others more = true → sameItems items more = true
  | [], [], [], _, _ => rfl
  | a :: items, b :: others, c :: more, h, h' => by
      rw [sameItems, Bool.and_eq_true] at h h' ⊢
      exact ⟨same_trans a b c h.1 h'.1, sameItems_trans items others more h.2 h'.2⟩

theorem sameEntries_trans : ∀ entries others more : List (String × Value),
    sameEntries entries others = true → sameEntries others more = true →
      sameEntries entries more = true
  | [], [], [], _, _ => rfl
  | (_, a) :: entries, (_, b) :: others, (_, c) :: more, h, h' => by
      rw [sameEntries, Bool.and_eq_true, Bool.and_eq_true] at h h' ⊢
      refine ⟨⟨?_, same_trans a b c h.1.2 h'.1.2⟩, sameEntries_trans entries others more h.2 h'.2⟩
      rw [eq_of_beq h.1.1]
      exact h'.1.1

end

end Value

/-! ## Calls -/

namespace HostCall
variable {a b c : HostCall}

theorem same_symm (h : a.same b = true) : b.same a = true := by
  rw [same, Bool.and_eq_true] at h ⊢
  exact ⟨BEq.symm h.1, Value.sameItems_symm _ _ h.2⟩

theorem same_trans (h : a.same b = true) (h' : b.same c = true) : a.same c = true := by
  rw [same, Bool.and_eq_true] at h h' ⊢
  refine ⟨?_, Value.sameItems_trans _ _ _ h.2 h'.2⟩
  rw [eq_of_beq h.1]
  exact h'.1

end HostCall
end Placement
