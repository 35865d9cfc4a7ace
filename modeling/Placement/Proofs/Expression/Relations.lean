import Placement.Expression.Evaluation
import Placement.Proofs.Version.Spelling
/-! # Relations of texts

Two texts that are versions are compared as versions, any other two by their characters.
**Of two texts one is less, or they are equal**, and the operators agree on which
(`relations_of_texts`).

Three texts can be in a circle: of two versions `p` and `q` the first may be the earlier one and
yet the later text, as `1.9.0` and `1.10.0` are, and a text that is no version may stand
between them as a text (`Torn`).  **There is no other circle** (`relations_of_texts`), and any
such pair of versions has one (`exists_torn`).

Between versions `<` is their precedence, **refined by their builds**
(`relations_of_versions`): `2.0.0` is less than `2.0.0+45`.
-/
namespace Placement
open Std
variable {a b c p q r : String} {v w : Version}

/-! ## The order behind the operators -/

/-- The truth value of a relation between two texts. -/
def Comparison.ofTexts (op : Comparison) (a b : String) : Except Fault Bool :=
  (Expression.relation op (.literal (.string a)) (.literal (.string b))).evalBool .empty

theorem Comparison.ofTexts_eq_apply (op : Comparison) :
    op.ofTexts a b = op.apply (.string a) (.string b) := by
  show truth ((op.apply (.string a) (.string b)).bind fun b => .ok (.bool b)) = _
  cases op.apply (.string a) (.string b) <;> rfl

namespace Value
open Version

theorem compareStrings_of_versions (hv : parse? a = some v) (hw : parse? b = some w) :
    compareStrings a b = compareVersions v w := by
  rw [compareStrings, hv, hw]
  rfl

theorem compareStrings_of_other (h : parse? a = none ∨ parse? b = none) :
    compareStrings a b = compare a b := by
  rw [compareStrings]
  split
  · rename_i hv hw
    rcases h with h | h
    · exact absurd (h.symm.trans hv) nofun
    · exact absurd (h.symm.trans hw) nofun
  · rfl

instance : OrientedCmp compareStrings where
  eq_swap {a b} := by
    rcases hv : parse? a with _ | v
    · rw [compareStrings_of_other (.inl hv), compareStrings_of_other (.inr hv)]
      exact OrientedCmp.eq_swap
    · rcases hw : parse? b with _ | w
      · rw [compareStrings_of_other (.inr hw), compareStrings_of_other (.inl hw)]
        exact OrientedCmp.eq_swap
      · rw [compareStrings_of_versions hv hw, compareStrings_of_versions hw hv]
        exact OrientedCmp.eq_swap

/-- Versions have one spelling each, so that different texts are different versions. -/
instance : LawfulEqCmp compareStrings where
  eq_of_compare {a b} h := by
    rcases hv : parse? a with _ | v
    · rw [compareStrings_of_other (.inl hv)] at h
      exact LawfulEqCmp.eq_of_compare h
    · rcases hw : parse? b with _ | w
      · rw [compareStrings_of_other (.inr hw)] at h
        exact LawfulEqCmp.eq_of_compare h
      · rw [compareStrings_of_versions hv hw] at h
        obtain rfl := eq_of_compareVersions h
        exact parse?_injective hv hw

/-! ## Circles -/

/-- **Two versions, the earlier of which is the later text, and a text between them** that is
no version. -/
structure Torn (p q r : String) : Prop where
  versions : ∃ v w, parse? p = some v ∧ parse? q = some w ∧ compareVersions v w = .lt
  other : parse? r = none
  above : q < r
  below : r < p

theorem compare_eq_lt_iff : compare a b = .lt ↔ a < b := compareOfLessAndEq_eq_lt

/-- Each of the three is less than the next one, and the last less than the first. -/
structure Circle (p q r : String) : Prop where
  first : compareStrings p q = .lt
  second : compareStrings q r = .lt
  third : compareStrings r p = .lt

theorem Circle.rotate (h : Circle p q r) : Circle q r p := ⟨h.second, h.third, h.first⟩

theorem Torn.circle (h : Torn p q r) : Circle p q r := by
  obtain ⟨v, w, hv, hw, hlt⟩ := h.versions
  refine ⟨(compareStrings_of_versions hv hw).trans hlt, ?_, ?_⟩
  · rw [compareStrings_of_other (.inr h.other)]
    exact compare_eq_lt_iff.mpr h.above
  · rw [compareStrings_of_other (.inl h.other)]
    exact compare_eq_lt_iff.mpr h.below

/-- One of the three versions of a circle is none. -/
theorem Circle.not_versions (h : Circle p q r) {u : Version} (hu : parse? p = some u)
    (hv : parse? q = some v) (hw : parse? r = some w) : False := by
  have hfirst := (compareStrings_of_versions hu hv).symm.trans h.first
  have hsecond := (compareStrings_of_versions hv hw).symm.trans h.second
  have hthird := (compareStrings_of_versions hw hu).symm.trans h.third
  have hgt := OrientedCmp.gt_of_lt hthird
  rw [TransCmp.lt_trans hfirst hsecond] at hgt
  cases hgt

/-- With a text that is no version in it, the other two of a circle are versions. -/
theorem Circle.torn (h : Circle p q r) (hr : parse? r = none) : Torn p q r := by
  have habove : q < r := by
    have hsecond := h.second
    rwa [compareStrings_of_other (.inr hr), compare_eq_lt_iff] at hsecond
  have hbelow : r < p := by
    have hthird := h.third
    rwa [compareStrings_of_other (.inl hr), compare_eq_lt_iff] at hthird
  have hfirst := h.first
  -- otherwise all three pairs are in the order of texts
  have hnot : ¬(parse? p = none ∨ parse? q = none) := by
    intro hother
    rw [compareStrings_of_other hother, compare_eq_lt_iff] at hfirst
    exact String.lt_irrefl p (String.lt_trans (String.lt_trans hfirst habove) hbelow)
  obtain ⟨hp, hq⟩ := not_or.mp hnot
  obtain ⟨v, hv⟩ := Option.ne_none_iff_exists'.mp hp
  obtain ⟨w, hw⟩ := Option.ne_none_iff_exists'.mp hq
  rw [compareStrings_of_versions hv hw] at hfirst
  exact ⟨⟨v, w, hv, hw, hfirst⟩, hr, habove, hbelow⟩

/-- **All circles are alike.** -/
theorem circle_iff : Circle a b c ↔ Torn a b c ∨ Torn b c a ∨ Torn c a b := by
  constructor
  · intro h
    -- Turned until its third text is one that is no version.
    rcases hc : parse? c with _ | w
    · exact .inl (h.torn hc)
    rcases ha : parse? a with _ | u
    · exact .inr (.inl (h.rotate.torn ha))
    rcases hb : parse? b with _ | v
    · exact .inr (.inr (h.rotate.rotate.torn hb))
    exact (h.not_versions ha hb hc).elim
  · rintro (h | h | h)
    · exact h.circle
    · exact h.circle.rotate.rotate
    · exact h.circle.rotate

/-- **What is less goes on to what is less**, unless it comes round. -/
theorem lt_trans_iff (hab : compareStrings a b = .lt) (hbc : compareStrings b c = .lt) :
    compareStrings a c = .lt ↔ ¬(Torn a b c ∨ Torn b c a ∨ Torn c a b) := by
  rw [← circle_iff]
  constructor
  · intro hac hcircle
    cases hac.symm.trans (OrientedCmp.gt_of_lt hcircle.third)
  · intro hcircle
    rcases hac : compareStrings a c with _ | _ | _
    · rfl
    · obtain rfl := LawfulEqCmp.eq_of_compare hac
      cases hab.symm.trans (OrientedCmp.gt_of_lt hbc)
    · exact absurd ⟨hab, hbc, OrientedCmp.lt_of_gt hac⟩ hcircle

/-! ## Every pair of versions that the two orders take differently is in a circle -/

/-- A text with a blank is no version. -/
theorem parse?_append_space (text : String) : parse? (text ++ " ") = none := by
  rw [Option.eq_none_iff_forall_ne_some]
  intro v hv
  refine absurd ((spells_of_parse? hv).chars ' ' ?_) (by decide)
  rw [String.toList_append]
  exact List.mem_append_right _ List.mem_cons_self

theorem lt_append_space (text : String) : text < text ++ " " := by
  show text.toList < (text ++ " ").toList
  rw [String.toList_append]
  induction text.toList with
  | nil => exact .nil
  | cons c rest ih => exact .cons ih

/-- The blank is below the characters of versions, and so comes before whatever else a later
text goes on with. -/
theorem append_space_lt {s t : List Char} (ht : ∀ c ∈ t, ' ' < c) (h : s < t) :
    s ++ [' '] < t := by
  induction s generalizing t with
  | nil =>
      cases t with
      | nil => cases h
      | cons d t => exact .rel (ht d List.mem_cons_self)
  | cons c s ih =>
      cases t with
      | nil => cases h
      | cons d t =>
          rcases List.cons_lt_cons_iff.mp h with hlt | ⟨rfl, hrest⟩
          · exact .rel hlt
          · exact .cons (ih (fun c hc => ht c (List.mem_cons_of_mem _ hc)) hrest)

/-- **There is always a text between them.** -/
theorem exists_torn (hv : parse? p = some v) (hw : parse? q = some w)
    (hversions : compareVersions v w = .lt) (htexts : q < p) : ∃ r, Torn p q r := by
  refine ⟨q ++ " ", ⟨v, w, hv, hw, hversions⟩, parse?_append_space q, lt_append_space q, ?_⟩
  show (q ++ " ").toList < p.toList
  rw [String.toList_append]
  exact append_space_lt (spells_of_parse? hv).chars htexts

end Value

/-! ## The operators -/

namespace Comparison
open Value Version

theorem ofTexts_less : less.ofTexts a b = .ok (compareStrings a b).isLT := ofTexts_eq_apply less

theorem ofTexts_lessEqual : lessEqual.ofTexts a b = .ok (compareStrings a b).isLE :=
  ofTexts_eq_apply lessEqual

theorem ofTexts_greater : greater.ofTexts a b = .ok (compareStrings a b).isGT :=
  ofTexts_eq_apply greater

theorem ofTexts_greaterEqual : greaterEqual.ofTexts a b = .ok (compareStrings a b).isGE :=
  ofTexts_eq_apply greaterEqual

theorem ofTexts_equal : equal.ofTexts a b = .ok (compareStrings a b).isEq := by
  rw [ofTexts_eq_apply]
  show Except.ok (Value.alike (.string a) (.string b)) = _
  rw [Value.alike]
  refine congrArg Except.ok (Bool.eq_iff_iff.mpr ?_)
  rw [beq_iff_eq, Ordering.isEq_iff_eq_eq]
  exact LawfulEqCmp.compare_eq_iff_eq.symm

theorem ofTexts_less_iff : less.ofTexts a b = .ok true ↔ compareStrings a b = .lt := by
  rw [ofTexts_less, Except.ok.injEq, Ordering.isLT_iff_eq_lt]

theorem ofTexts_greater_iff : greater.ofTexts a b = .ok true ↔ compareStrings b a = .lt := by
  rw [ofTexts_greater, Except.ok.injEq, Ordering.isGT_iff_eq_gt]
  exact OrientedCmp.gt_iff_lt

/-- **How the operators order texts.**  Of each two texts one is less, or they are equal, and
`<=` and `>=` add the equal ones; and what is less than the lesser of two texts is less than
the other one, unless the three are torn. -/
theorem relations_of_texts :
    (∀ a b : String, ∃ isLess isEqual isGreater,
      less.ofTexts a b = .ok isLess ∧ equal.ofTexts a b = .ok isEqual ∧
        greater.ofTexts a b = .ok isGreater ∧
        [isLess, isEqual, isGreater].count true = 1 ∧
        lessEqual.ofTexts a b = .ok (isLess || isEqual) ∧
        greaterEqual.ofTexts a b = .ok (isGreater || isEqual)) ∧
    ∀ a b c : String, less.ofTexts a b = .ok true → less.ofTexts b c = .ok true →
      (less.ofTexts a c = .ok true ↔ ¬(Torn a b c ∨ Torn b c a ∨ Torn c a b)) := by
  refine ⟨fun a b => ?_, fun a b c hab hbc => ?_⟩
  · refine ⟨_, _, _, ofTexts_less, ofTexts_equal, ofTexts_greater, ?_, ?_, ?_⟩
    · cases compareStrings a b <;> rfl
    · rw [ofTexts_lessEqual]
      cases compareStrings a b <;> rfl
    · rw [ofTexts_greaterEqual]
      cases compareStrings a b <;> rfl
  · rw [ofTexts_less_iff] at hab hbc ⊢
    exact lt_trans_iff hab hbc

/-- A pair of versions, in this order as versions and as texts, and a text after them. -/
theorem versions_before_word : less.ofTexts "1.2.0" "1.9.0" = .ok true ∧
    less.ofTexts "1.9.0" "beta" = .ok true ∧ less.ofTexts "1.2.0" "beta" = .ok true := by
  have hfirst : less.ofTexts "1.2.0" "1.9.0" = .ok true := rfl
  have hsecond : less.ofTexts "1.9.0" "beta" = .ok true := rfl
  refine ⟨hfirst, hsecond, (relations_of_texts.2 _ _ _ hfirst hsecond).mpr ?_⟩
  have hword : parse? "beta" = none := rfl
  rintro (h | h | h)
  · exact absurd h.below (by decide)
  · obtain ⟨_, _, -, hw, -⟩ := h.versions
    cases hword.symm.trans hw
  · obtain ⟨_, _, hv, -, -⟩ := h.versions
    cases hword.symm.trans hv

/-- `1.9` is no version, and stands between two versions as a text. -/
theorem texts_in_circle : less.ofTexts "1.10.0" "1.9" = .ok true ∧
    less.ofTexts "1.9" "1.9.0" = .ok true ∧ less.ofTexts "1.10.0" "1.9.0" = .ok false :=
  ⟨rfl, rfl, rfl⟩

/-- **How the operators order versions**: by their precedence, and where it is the same by
their builds; and so by the precedence alone exactly if versions of the same precedence have
the same build. -/
theorem relations_of_versions (hv : parse? a = some v) (hw : parse? b = some w) :
    (less.ofTexts a b = .ok true ↔
      Precedes v w ∨ SamePrecedence v w ∧ BuildPrecedes v w) ∧
    (greater.ofTexts a b = .ok true ↔
      Precedes w v ∨ SamePrecedence w v ∧ BuildPrecedes w v) ∧
    ((less.ofTexts a b = .ok true ↔ Precedes v w) ∧
        (greater.ofTexts a b = .ok true ↔ Precedes w v) ↔
      (SamePrecedence v w → v.build = w.build)) := by
  have hvAllowed := (spells_of_parse? hv).allowed
  have hwAllowed := (spells_of_parse? hw).allowed
  rw [ofTexts_less_iff, ofTexts_greater_iff, compareStrings_of_versions hv hw,
    compareStrings_of_versions hw hv]
  refine ⟨compareVersions_eq_lt_iff hvAllowed hwAllowed,
    compareVersions_eq_lt_iff hwAllowed hvAllowed, ?_, fun hbuild => ⟨?_, ?_⟩⟩
  · rintro ⟨hless, hgreater⟩ hsame
    by_contra hbuild
    rcases horder : compareVersions v w with _ | _ | _
    · exact hsame.not_precedes (hless.mp horder)
    · exact hbuild (congrArg build (eq_of_compareVersions horder))
    · exact hsame.symm.not_precedes (hgreater.mp (OrientedCmp.lt_of_gt horder))
  · exact compareVersions_eq_lt_iff_precedes hvAllowed hwAllowed hbuild
  · exact compareVersions_eq_lt_iff_precedes hwAllowed hvAllowed fun hsame =>
      (hbuild hsame.symm).symm

/-- The ninth candidate comes before the tenth one, and a version before a build of it that has
the same precedence. -/
theorem candidates_and_builds_in_order :
    let ninth : Version := ⟨1, 0, 0, ["rc".toList, "9".toList], []⟩
    let tenth : Version := ⟨1, 0, 0, ["rc".toList, "10".toList], ["7".toList]⟩
    let plain : Version := ⟨2, 0, 0, [], []⟩
    let built : Version := ⟨2, 0, 0, [], ["45".toList]⟩
    (Precedes ninth tenth ∧ less.ofTexts "1.0.0-rc.9" "1.0.0-rc.10+7" = .ok true) ∧
      SamePrecedence plain built ∧ less.ofTexts "2.0.0" "2.0.0+45" = .ok true := by
  intro ninth tenth plain built
  have hlower : Precedes ninth tenth := by
    refine .prerelease ⟨rfl, rfl, rfl⟩ nofun (.cons (.rel ?_))
    exact .numbers (by decide) (by decide) (by decide)
  have hsame : SamePrecedence plain built := ⟨⟨rfl, rfl, rfl⟩, rfl⟩
  have hbuild : BuildPrecedes plain built := .nil
  obtain ⟨hless, -, -⟩ := relations_of_versions (a := "1.0.0-rc.9") (b := "1.0.0-rc.10+7")
    (v := ninth) (w := tenth) rfl rfl
  obtain ⟨hless', -, -⟩ := relations_of_versions (a := "2.0.0") (b := "2.0.0+45")
    (v := plain) (w := built) rfl rfl
  exact ⟨⟨hlower, hless.mpr (.inl hlower)⟩, hsame, hless'.mpr (.inr ⟨hsame, hbuild⟩)⟩

end Comparison
end Placement
