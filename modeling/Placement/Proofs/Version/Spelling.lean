import Placement.Proofs.Version.Precedence
/-! # Texts of versions

A text that is read as a version is made of the numbers, without leading zeros, and of the
identifiers in their places (`Version.Spells`).  So **no two texts are read as the same
version** (`parse?_injective`), and a text with another character is none.
-/
namespace Placement.Version
open Numeral Std
variable {text rest digits : List Char} {v w : Version}

/-- A sign and the identifiers behind it, if there are any. -/
def marked (sign : Char) : List (List Char) → List Char
  | [] => []
  | parts => sign :: ['.'].intercalate parts

/-- **The text stands for the version.** -/
structure Spells (text : List Char) (v : Version) : Prop where
  allowed : Allowed v
  parts : ∃ major minor patch : List Char, (Plain major ∧ Plain minor ∧ Plain patch) ∧
    (ofDigits major = v.major ∧ ofDigits minor = v.minor ∧ ofDigits patch = v.patch) ∧
    text = major ++ '.' :: (minor ++ '.' :: (patch ++ (marked '-' v.prerelease ++
      marked '+' v.build)))
  chars : ∀ c ∈ text, ' ' < c

/-! ## Numbers -/

theorem Plain.eq_of_ofDigits {a b : List Char} (ha : Plain a) (hb : Plain b)
    (h : ofDigits a = ofDigits b) : a = b := by
  have hlt := compareNumber_eq_lt_iff ha hb
  have hgt := compareNumber_eq_lt_iff hb ha
  rcases hcompare : compareNumber a b
  · exact absurd (hlt.mp hcompare) (Nat.not_lt.mpr (Nat.le_of_eq h.symm))
  · exact LawfulEqCmp.eq_of_compare hcompare
  · exact absurd (hgt.mp (OrientedCmp.lt_of_gt hcompare)) (Nat.not_lt.mpr (Nat.le_of_eq h))

theorem number?_eq_some {n : ℕ} (h : number? text = some (n, rest)) :
    ∃ digits, Plain digits ∧ ofDigits digits = n ∧ text = digits ++ rest := by
  rw [number?, spanDigits] at h
  dsimp only at h
  split at h
  · cases h
  · rename_i hshape
    split at h
    · cases h
      rw [Bool.not_eq_true, Bool.or_eq_false_iff, Bool.and_eq_false_iff] at hshape
      obtain ⟨hnonempty, hzero⟩ := hshape
      refine ⟨_, ⟨List.all_takeWhile, ?_, fun hlong => ?_⟩, rfl,
        List.takeWhile_append_dropWhile.symm⟩
      · exact fun hnil => by simp [hnil] at hnonempty
      · rcases hzero with hzero | hshort
        · simpa using hzero
        · exact absurd hlong (of_decide_eq_false hshort)
    · cases h

theorem dot?_eq_some (h : parse?.dot? text = some rest) : text = '.' :: rest := by
  rw [parse?.dot?.eq_def] at h
  split at h
  · cases h
    rfl
  · cases h

/-! ## Identifiers -/

theorem splitDots_ne_nil (text : List Char) : splitDots text ≠ [] := by
  cases text with
  | nil => exact List.cons_ne_nil _ _
  | cons c rest =>
      rw [splitDots]
      split
      · exact List.cons_ne_nil _ _
      · split <;> exact List.cons_ne_nil _ _

theorem splitDots_eq (text : List Char) : splitDots text = text.splitOn '.' := by
  induction text with
  | nil => rfl
  | cons c rest ih =>
      have hcons : (c :: rest).splitOn '.' =
          if c == '.' then [] :: rest.splitOn '.' else (rest.splitOn '.').modifyHead (c :: ·) :=
        List.splitOnP_cons_eq_if_modifyHead c rest
      rw [splitDots, hcons, ← ih]
      rcases hparts : splitDots rest with _ | ⟨part, parts⟩
      · exact absurd hparts (splitDots_ne_nil rest)
      · by_cases hdot : c = '.' <;> simp [hdot]

theorem space_lt_of_isDigit {c : Char} (h : c.isDigit = true) : ' ' < c :=
  Nat.lt_of_lt_of_le (by decide) (toNat_of_isDigit h).1

theorem space_lt_of_isIdentifierChar {c : Char} (h : isIdentifierChar c = true) : ' ' < c := by
  rw [isIdentifierChar, Bool.or_eq_true, decide_eq_true_eq] at h
  rcases h with h | rfl
  · have hclass : (decide (c.val ≥ 'A'.val ∧ c.val ≤ 'Z'.val) ||
        (decide (c.val ≥ 'a'.val) && decide (c.val ≤ 'z'.val)) || c.isDigit) = true := h
    simp only [Bool.or_eq_true, Bool.and_eq_true, decide_eq_true_eq] at hclass
    rcases hclass with (⟨hfrom, -⟩ | ⟨hfrom, -⟩) | hdigit
    · exact UInt32.lt_of_lt_of_le (by decide) hfrom
    · exact UInt32.lt_of_lt_of_le (by decide) hfrom
    · exact space_lt_of_isDigit hdigit
  · decide

theorem identifiers?_eq_some {parts : List (List Char)}
    (h : identifiers? text = some (parts, rest)) :
    parts ≠ [] ∧ (∀ part ∈ parts, part ≠ []) ∧ text = ['.'].intercalate parts ++ rest ∧
      ∀ c ∈ ['.'].intercalate parts, ' ' < c := by
  unfold identifiers? at h
  dsimp only at h
  split at h
  · cases h
  · rename_i hempty
    cases h
    rw [splitDots_eq, List.intercalate_splitOn]
    refine ⟨?_, ?_, List.takeWhile_append_dropWhile.symm, ?_⟩
    · rw [← splitDots_eq]
      exact splitDots_ne_nil _
    · intro part hpart hnil
      rw [← splitDots_eq] at hpart
      exact hempty (List.any_eq_true.mpr ⟨part, hpart, List.isEmpty_iff.mpr hnil⟩)
    · intro c hc
      have hinside := List.all_eq_true.mp List.all_takeWhile c hc
      rw [Bool.or_eq_true, decide_eq_true_eq] at hinside
      rcases hinside with hc | rfl
      · exact space_lt_of_isIdentifierChar hc
      · decide

theorem marked_of_ne_nil (sign : Char) {parts : List (List Char)} (h : parts ≠ []) :
    marked sign parts = sign :: ['.'].intercalate parts := by
  cases parts with
  | nil => exact absurd rfl h
  | cons part parts => rfl

theorem prerelease?_eq_some {parts : List (List Char)}
    (h : prerelease? text = some (parts, rest)) :
    (∀ part ∈ parts, part ≠ [] ∧ allowedPrerelease part = true) ∧
      text = marked '-' parts ++ rest ∧ ∀ c ∈ marked '-' parts, ' ' < c := by
  unfold prerelease? at h
  split at h
  · obtain ⟨⟨found, rest'⟩, hfound, hallowed⟩ := Option.bind_eq_some_iff.mp h
    dsimp only at hallowed
    split at hallowed
    · rename_i hall
      cases hallowed
      obtain ⟨hne, hnonempty, rfl, hchars⟩ := identifiers?_eq_some hfound
      rw [marked_of_ne_nil _ hne]
      refine ⟨fun part hmem => ⟨hnonempty _ hmem, List.all_eq_true.mp hall _ hmem⟩, rfl, ?_⟩
      exact List.forall_mem_cons.mpr ⟨by decide, hchars⟩
    · cases hallowed
  · cases h
    exact ⟨nofun, rfl, nofun⟩

theorem build?_eq_some {parts : List (List Char)} (h : build? text = some parts) :
    text = marked '+' parts ∧ ∀ c ∈ text, ' ' < c := by
  unfold build? at h
  split at h
  · cases h
    exact ⟨rfl, nofun⟩
  · obtain ⟨⟨found, rest⟩, hfound, hend⟩ := Option.bind_eq_some_iff.mp h
    dsimp only at hend
    split at hend
    · rename_i hnil
      cases hend
      obtain ⟨hne, -, hrest, hchars⟩ := identifiers?_eq_some hfound
      rw [List.isEmpty_iff.mp hnil, List.append_nil] at hrest
      rw [marked_of_ne_nil _ hne, ← hrest]
      exact ⟨rfl, List.forall_mem_cons.mpr ⟨by decide, hrest ▸ hchars⟩⟩
    · cases hend
  · cases h

/-! ## Whole texts -/

/-- **What is read as a version spells it.** -/
theorem spells_of_parse? {text : String} (h : parse? text = some v) : Spells text.toList v := by
  rw [parse?] at h
  obtain ⟨⟨major, rest₁⟩, hmajor, h⟩ := Option.bind_eq_some_iff.mp h
  obtain ⟨rest₂, hdot₁, h⟩ := Option.bind_eq_some_iff.mp h
  obtain ⟨⟨minor, rest₃⟩, hminor, h⟩ := Option.bind_eq_some_iff.mp h
  obtain ⟨rest₄, hdot₂, h⟩ := Option.bind_eq_some_iff.mp h
  obtain ⟨⟨patch, rest₅⟩, hpatch, h⟩ := Option.bind_eq_some_iff.mp h
  obtain ⟨⟨prerelease, build⟩, hmarks, h⟩ := Option.bind_eq_some_iff.mp h
  obtain ⟨⟨found, rest₆⟩, hprerelease, hmarks⟩ := Option.bind_eq_some_iff.mp hmarks
  obtain ⟨parts, hbuild, hmarks⟩ := Option.bind_eq_some_iff.mp hmarks
  cases h
  cases hmarks
  -- What is left after a part is replaced by the part that is read from it.
  obtain ⟨majorDigits, hmajorPlain, rfl, htext⟩ := number?_eq_some hmajor
  obtain ⟨minorDigits, hminorPlain, rfl, rfl⟩ := number?_eq_some hminor
  obtain ⟨patchDigits, hpatchPlain, rfl, rfl⟩ := number?_eq_some hpatch
  obtain rfl := dot?_eq_some hdot₁
  obtain rfl := dot?_eq_some hdot₂
  obtain ⟨hallowed, rfl, hprereleaseChars⟩ := prerelease?_eq_some hprerelease
  obtain ⟨rfl, hbuildChars⟩ := build?_eq_some hbuild
  refine ⟨hallowed, ⟨majorDigits, minorDigits, patchDigits, ⟨hmajorPlain, hminorPlain, hpatchPlain⟩,
    ⟨rfl, rfl, rfl⟩, htext⟩, ?_⟩
  rw [htext]
  have hdot : ' ' < '.' := by decide
  intro c hc
  simp only [List.mem_append, List.mem_cons] at hc
  rcases hc with hc | rfl | hc | rfl | hc | hc | hc
  · exact space_lt_of_isDigit (hmajorPlain.digits c hc)
  · exact hdot
  · exact space_lt_of_isDigit (hminorPlain.digits c hc)
  · exact hdot
  · exact space_lt_of_isDigit (hpatchPlain.digits c hc)
  · exact hprereleaseChars c hc
  · exact hbuildChars c hc

/-- **A version has one spelling.** -/
theorem Spells.unique {other : List Char} (h : Spells text v) (hother : Spells other v) :
    text = other := by
  obtain ⟨major, minor, patch, ⟨hmajor, hminor, hpatch⟩, ⟨hm, hn, hp⟩, rfl⟩ := h.parts
  obtain ⟨major', minor', patch', ⟨hmajor', hminor', hpatch'⟩, ⟨hm', hn', hp'⟩, rfl⟩ := hother.parts
  rw [hmajor.eq_of_ofDigits hmajor' (hm.trans hm'.symm),
    hminor.eq_of_ofDigits hminor' (hn.trans hn'.symm),
    hpatch.eq_of_ofDigits hpatch' (hp.trans hp'.symm)]

theorem parse?_injective {s t : String} (hs : parse? s = some v) (ht : parse? t = some v) :
    s = t :=
  String.toList_inj.mp ((spells_of_parse? hs).unique (spells_of_parse? ht))

end Placement.Version
