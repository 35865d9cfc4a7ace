import Placement.Proofs.Decimal.Spelling
import Placement.Version
/-! # Precedence of versions

Versions have a precedence: the three numbers decide, then the pre-release identifiers one by
one, and a release comes after its pre-releases (`Version.Precedes`).  Builds have no part in
it.

`Version.compareVersions` is a total order on versions.  **It is the precedence, refined by the
builds of versions that share one** (`compareVersions_eq_lt_iff`).  Numbers among the
identifiers are compared by their length and then as texts, which comes to comparing their
values because they have no leading zeros (`compareNumber_eq_lt_iff`).
-/
namespace Placement.Version
open Numeral Std
variable {a b : List Char} {v w : Version}

/-! ## Precedence -/

/-- **How identifiers are ordered**: numbers in an order of their own, below all texts; texts
by their characters. -/
inductive Below (lower : List Char → List Char → Prop) (a b : List Char) : Prop
  | numbers (ha : isNumeric a = true) (hb : isNumeric b = true) (h : lower a b)
  | numberText (ha : isNumeric a = true) (hb : isNumeric b = false)
  | texts (ha : isNumeric a = false) (hb : isNumeric b = false) (h : a < b)

/-- Pre-release identifiers: numbers by their value. -/
def PrereleaseBelow : List Char → List Char → Prop :=
  Below fun a b => ofDigits a < ofDigits b

/-- Build identifiers: numbers by their value, and of two spellings of one number the shorter
first. -/
def BuildBelow : List Char → List Char → Prop :=
  Below fun a b => ofDigits a < ofDigits b ∨ ofDigits a = ofDigits b ∧ a.length < b.length

/-- The three numbers are the same. -/
structure SameNumbers (v w : Version) : Prop where
  major : v.major = w.major
  minor : v.minor = w.minor
  patch : v.patch = w.patch

/-- **One version has lower precedence than another one.** -/
inductive Precedes (v w : Version) : Prop
  | major (h : v.major < w.major)
  | minor (hmajor : v.major = w.major) (h : v.minor < w.minor)
  | patch (hmajor : v.major = w.major) (hminor : v.minor = w.minor) (h : v.patch < w.patch)
  /-- A pre-release comes before its release. -/
  | release (hsame : SameNumbers v w) (hv : v.prerelease ≠ []) (hw : w.prerelease = [])
  /-- The first identifier that differs decides; more identifiers come after fewer. -/
  | prerelease (hsame : SameNumbers v w) (hv : v.prerelease ≠ [])
      (h : List.Lex PrereleaseBelow v.prerelease w.prerelease)

/-- **Two versions have the same precedence**: they differ in their builds at most. -/
structure SamePrecedence (v w : Version) : Prop extends SameNumbers v w where
  prerelease : v.prerelease = w.prerelease

/-- The build of one version is below that of another one. -/
def BuildPrecedes (v w : Version) : Prop := List.Lex BuildBelow v.build w.build

/-- Pre-release identifiers are not empty, and numbers among them have no leading zeros. -/
def Allowed (v : Version) : Prop :=
  ∀ identifier ∈ v.prerelease, identifier ≠ [] ∧ allowedPrerelease identifier = true

/-! ## Numbers by length and text -/

/-- The value of the first digit, and of the rest. -/
theorem ofDigits_cons (c : Char) (digits : List Char) :
    ofDigits (c :: digits) = (c.toNat - '0'.toNat) * 10 ^ digits.length + ofDigits digits := by
  rw [← List.singleton_append, ofDigits_append, ofDigits, Nat.ofDigitChars_cons,
    Nat.ofDigitChars_nil, Nat.mul_zero, Nat.zero_add]

theorem toNat_of_isDigit {c : Char} (h : c.isDigit = true) :
    '0'.toNat ≤ c.toNat ∧ c.toNat < '0'.toNat + 10 := by
  obtain ⟨hfrom, hto⟩ := Char.isDigit_iff_toNat.mp h
  exact ⟨hfrom, Nat.lt_succ_of_le hto⟩

/-- The larger leading part decides, whatever follows within its unit. -/
theorem mul_add_lt_iff {m n x y unit : ℕ} (hx : x < unit) (hy : y < unit) :
    m * unit + x < n * unit + y ↔ m < n ∨ m = n ∧ x < y := by
  rcases Nat.lt_trichotomy m n with hlt | rfl | hgt
  · have hmul : (m + 1) * unit ≤ n * unit := Nat.mul_le_mul_right unit hlt
    rw [Nat.succ_mul] at hmul
    omega
  · omega
  · have hmul : (n + 1) * unit ≤ m * unit := Nat.mul_le_mul_right unit hgt
    rw [Nat.succ_mul] at hmul
    omega

theorem ofDigits_lt (h : AllDigits a) : ofDigits a < 10 ^ a.length := by
  induction a with
  | nil => decide
  | cons c rest ih =>
      obtain ⟨hc, hrest⟩ := List.forall_mem_cons.mp h
      have hdigit := toNat_of_isDigit hc
      have hlow := ih hrest
      have hmul : (c.toNat - '0'.toNat) * 10 ^ rest.length ≤ 9 * 10 ^ rest.length :=
        Nat.mul_le_mul_right _ (by omega)
      rw [ofDigits_cons, List.length_cons, Nat.pow_succ]
      omega

/-- **Numbers of the same length are ordered as texts.** -/
theorem lt_iff_ofDigits_lt (ha : AllDigits a) (hb : AllDigits b) (h : a.length = b.length) :
    a < b ↔ ofDigits a < ofDigits b := by
  induction a generalizing b with
  | nil =>
      obtain rfl := List.length_eq_zero_iff.mp h.symm
      decide
  | cons c s ih =>
      obtain ⟨d, t, rfl⟩ := List.exists_cons_of_length_eq_add_one h.symm
      obtain ⟨hc, hs⟩ := List.forall_mem_cons.mp ha
      obtain ⟨hd, ht⟩ := List.forall_mem_cons.mp hb
      have hlength : s.length = t.length := Nat.succ.inj h
      have hslow := ofDigits_lt hs
      rw [hlength] at hslow
      rw [List.cons_lt_cons_iff, ofDigits_cons, ofDigits_cons, ih hs ht hlength, hlength,
        mul_add_lt_iff hslow (ofDigits_lt ht)]
      have hcdigit := toNat_of_isDigit hc
      have hddigit := toNat_of_isDigit hd
      have hlt : c < d ↔ c.toNat - '0'.toNat < d.toNat - '0'.toNat := by
        rw [Char.lt_def, UInt32.lt_iff_toNat_lt]
        show c.toNat < d.toNat ↔ _
        omega
      have heq : c = d ↔ c.toNat - '0'.toNat = d.toNat - '0'.toNat := by
        rw [← Char.toNat_inj]
        omega
      rw [hlt, heq]

/-- Digits without a leading zero reach the power of ten of their length. -/
theorem le_ofDigits (ha : AllDigits a) (hlong : 1 < a.length) (hzero : a.head? ≠ some '0') :
    10 ^ (a.length - 1) ≤ ofDigits a := by
  cases a with
  | nil => exact absurd hlong (by decide)
  | cons c rest =>
      have hdigit := toNat_of_isDigit (ha c List.mem_cons_self)
      have hne : c.toNat ≠ '0'.toNat := fun heq => hzero (congrArg some (Char.toNat_inj.mp heq))
      have hmul : 1 * 10 ^ rest.length ≤ (c.toNat - '0'.toNat) * 10 ^ rest.length :=
        Nat.mul_le_mul_right _ (by omega)
      rw [ofDigits_cons, List.length_cons, Nat.add_sub_cancel]
      omega

theorem allDigits_of_isNumeric (h : isNumeric a = true) : AllDigits a := List.all_eq_true.mp h

/-- Numbers by their length, then as texts. -/
def compareNumber (a b : List Char) : Ordering :=
  (compare a.length b.length).then (compareText a b)

theorem compareText_eq_lt_iff : compareText a b = .lt ↔ a < b := compareOfLessAndEq_eq_lt

/-- A number of at least one digit without leading zeros. -/
structure Plain (digits : List Char) : Prop where
  numeric : isNumeric digits = true
  nonempty : digits ≠ []
  noZero : 1 < digits.length → digits.head? ≠ some '0'

theorem Plain.digits (h : Plain a) : AllDigits a := allDigits_of_isNumeric h.numeric

/-- A shorter number is smaller. -/
theorem Plain.lt_of_length_lt (ha : Plain a) (hb : Plain b) (h : a.length < b.length) :
    ofDigits a < ofDigits b := by
  have hpositive := List.length_pos_of_ne_nil ha.nonempty
  have hlong : 1 < b.length := Nat.lt_of_le_of_lt hpositive h
  calc ofDigits a < 10 ^ a.length := ofDigits_lt ha.digits
    _ ≤ 10 ^ (b.length - 1) := Nat.pow_le_pow_right (by decide) (Nat.le_sub_one_of_lt h)
    _ ≤ ofDigits b := le_ofDigits hb.digits hlong (hb.noZero hlong)

/-- **By length and text is by value**, where there are no leading zeros. -/
theorem compareNumber_eq_lt_iff (ha : Plain a) (hb : Plain b) :
    compareNumber a b = .lt ↔ ofDigits a < ofDigits b := by
  rw [compareNumber, Ordering.then_eq_lt, Nat.compare_eq_lt, Nat.compare_eq_eq,
    compareText_eq_lt_iff]
  rcases Nat.lt_trichotomy a.length b.length with hlt | heq | hgt
  · exact iff_of_true (.inl hlt) (ha.lt_of_length_lt hb hlt)
  · rw [lt_iff_ofDigits_lt ha.digits hb.digits heq]
    omega
  -- The longer number is larger, so neither side of the equivalence holds.
  · have hmore := hb.lt_of_length_lt ha hgt
    omega

/-! ## Comparisons are total orders -/

/-- Of two different texts one is below the other. -/
theorem lt_iff_not_lt_and_ne (a b : List Char) : a < b ↔ ¬b < a ∧ a ≠ b := by
  constructor
  · intro h
    exact ⟨List.lt_asymm h, fun heq => List.lt_irrefl b (heq ▸ h)⟩
  · rintro ⟨hnot, hne⟩
    by_contra hother
    exact hne (List.le_antisymm hnot hother)

instance : TransCmp compareText :=
  TransOrd.compareOfLessAndEq_of_lt_trans_of_lt_iff List.lt_trans lt_iff_not_lt_and_ne

instance : LawfulEqCmp compareText where
  eq_of_compare {a b} h := by
    by_contra hne
    rw [compareText, compareOfLessAndEq, if_neg hne] at h
    split at h <;> cases h

/-- Numbers in an order of their own, below all texts. -/
def numbersFirst (compareNumbers : List Char → List Char → Ordering) (a b : List Char) :
    Ordering :=
  match isNumeric a, isNumeric b with
  | true, true => compareNumbers a b
  | true, false => .lt
  | false, true => .gt
  | false, false => compareText a b

theorem numbersFirst_eq_lt_iff {compareNumbers : List Char → List Char → Ordering} :
    numbersFirst compareNumbers a b = .lt ↔ Below (fun a b => compareNumbers a b = .lt) a b := by
  rw [numbersFirst]
  constructor
  · intro h
    split at h
    · exact .numbers ‹_› ‹_› h
    · exact .numberText ‹_› ‹_›
    · cases h
    · exact .texts ‹_› ‹_› (compareText_eq_lt_iff.mp h)
  · rintro (⟨ha, hb, h⟩ | ⟨ha, hb⟩ | ⟨ha, hb, h⟩)
    · rw [ha, hb]
      exact h
    · rw [ha, hb]
    · rw [ha, hb]
      exact compareText_eq_lt_iff.mpr h

theorem below_congr {lower smaller : List Char → List Char → Prop}
    (h : isNumeric a = true → isNumeric b = true → (lower a b ↔ smaller a b)) :
    Below lower a b ↔ Below smaller a b := by
  constructor
  · rintro (⟨ha, hb, hlower⟩ | ⟨ha, hb⟩ | ⟨ha, hb, hlt⟩)
    · exact .numbers ha hb ((h ha hb).mp hlower)
    · exact .numberText ha hb
    · exact .texts ha hb hlt
  · rintro (⟨ha, hb, hsmaller⟩ | ⟨ha, hb⟩ | ⟨ha, hb, hlt⟩)
    · exact .numbers ha hb ((h ha hb).mpr hsmaller)
    · exact .numberText ha hb
    · exact .texts ha hb hlt

theorem below_irrefl {lower : List Char → List Char → Prop} (h : ∀ a, ¬lower a a)
    (a : List Char) : ¬Below lower a a := by
  rintro (⟨-, -, hlower⟩ | ⟨ha, hb⟩ | ⟨-, -, hlt⟩)
  · exact h a hlower
  · exact absurd (ha.symm.trans hb) (by decide)
  · exact List.lt_irrefl a hlt

instance {compareNumbers : List Char → List Char → Ordering} [TransCmp compareNumbers] :
    TransCmp (numbersFirst compareNumbers) where
  eq_swap {a b} := by
    cases ha : isNumeric a <;> cases hb : isNumeric b <;> simp only [numbersFirst, ha, hb]
    · exact OrientedCmp.eq_swap
    · rfl
    · rfl
    · exact OrientedCmp.eq_swap
  isLE_trans {a b c} hab hbc := by
    cases ha : isNumeric a <;> cases hb : isNumeric b <;> cases hc : isNumeric c <;>
      simp only [numbersFirst, ha, hb, hc] at hab hbc ⊢
    -- Only three numbers or three texts leave something to show.
    all_goals first
      | exact TransCmp.isLE_trans hab hbc | rfl | exact absurd hab (by decide)
      | exact absurd hbc (by decide)

/-- Different identifiers are told apart if different numbers are. -/
theorem eq_of_numbersFirst {compareNumbers : List Char → List Char → Ordering}
    (hnumbers : isNumeric a = true → isNumeric b = true → compareNumbers a b = .eq → a = b)
    (h : numbersFirst compareNumbers a b = .eq) : a = b := by
  rw [numbersFirst] at h
  split at h
  · exact hnumbers ‹_› ‹_› h
  · cases h
  · cases h
  · exact LawfulEqCmp.eq_of_compare h

instance : TransCmp compareNumber :=
  inferInstanceAs (TransCmp (compareLex (compareOn List.length) compareText))

instance : LawfulEqCmp compareNumber where
  eq_of_compare h := LawfulEqCmp.eq_of_compare (Ordering.then_eq_eq.mp h).2

theorem comparePrereleaseIdentifier_eq :
    comparePrereleaseIdentifier = numbersFirst compareNumber := rfl

/-- Numbers by their value, then by their length. -/
def compareSpelling (a b : List Char) : Ordering :=
  (compare (ofDigits a) (ofDigits b)).then (compare a.length b.length)

instance : TransCmp compareSpelling :=
  inferInstanceAs (TransCmp (compareLex (compareOn ofDigits) (compareOn List.length)))

theorem compareBuildIdentifier_eq : compareBuildIdentifier = numbersFirst compareSpelling := rfl

theorem compareSpelling_eq_lt_iff : compareSpelling a b = .lt ↔
    ofDigits a < ofDigits b ∨ ofDigits a = ofDigits b ∧ a.length < b.length := by
  rw [compareSpelling, Ordering.then_eq_lt, Nat.compare_eq_lt, Nat.compare_eq_eq,
    Nat.compare_eq_lt]

instance : TransCmp comparePrereleaseIdentifier :=
  comparePrereleaseIdentifier_eq ▸ inferInstance

instance : TransCmp compareBuildIdentifier := compareBuildIdentifier_eq ▸ inferInstance

instance : LawfulEqCmp comparePrereleaseIdentifier where
  eq_of_compare := by
    rw [comparePrereleaseIdentifier_eq]
    exact eq_of_numbersFirst fun _ _ => LawfulEqCmp.eq_of_compare

instance : LawfulEqCmp compareBuildIdentifier where
  eq_of_compare {a b} := by
    rw [compareBuildIdentifier_eq]
    refine eq_of_numbersFirst fun ha hb h => ?_
    rw [compareSpelling, Ordering.then_eq_eq, Nat.compare_eq_eq, Nat.compare_eq_eq] at h
    obtain ⟨hvalue, hlength⟩ := h
    have hab := lt_iff_ofDigits_lt (allDigits_of_isNumeric ha) (allDigits_of_isNumeric hb) hlength
    have hba := lt_iff_ofDigits_lt (allDigits_of_isNumeric hb) (allDigits_of_isNumeric ha)
      hlength.symm
    -- Texts of the same length and value are neither below nor above each other.
    exact List.le_antisymm (List.not_lt.mp fun h => by have := hba.mp h; omega)
      (List.not_lt.mp fun h => by have := hab.mp h; omega)

/-! ## Lists of identifiers -/

theorem compareLists_eq {α : Type} (compareItems : α → α → Ordering) :
    compareLists compareItems = List.compareLex compareItems := by
  funext s t
  induction s generalizing t with
  | nil => cases t <;> rfl
  | cons a s ih =>
      cases t with
      | nil => rfl
      | cons b t => rw [compareLists, List.compareLex_cons_cons, ih]

instance {α : Type} {compareItems : α → α → Ordering} [TransCmp compareItems] :
    TransCmp (compareLists compareItems) :=
  compareLists_eq compareItems ▸ inferInstance

instance {α : Type} {compareItems : α → α → Ordering} [LawfulEqCmp compareItems] :
    LawfulEqCmp (compareLists compareItems) :=
  compareLists_eq compareItems ▸ inferInstance

/-- **The first items that differ decide**, in the order of items. -/
theorem compareLists_eq_lt_iff {α : Type} {compareItems : α → α → Ordering}
    [LawfulEqCmp compareItems] {lower : α → α → Prop} {s t : List α}
    (h : ∀ a ∈ s, ∀ b ∈ t, compareItems a b = .lt ↔ lower a b) :
    compareLists compareItems s t = .lt ↔ List.Lex lower s t := by
  induction s generalizing t with
  | nil =>
      cases t with
      | nil => exact iff_of_false nofun nofun
      | cons b t => exact iff_of_true rfl .nil
  | cons a s ih =>
      cases t with
      | nil => exact iff_of_false nofun nofun
      | cons b t =>
          have hrest := ih (t := t) fun a ha b hb =>
            h a (List.mem_cons_of_mem _ ha) b (List.mem_cons_of_mem _ hb)
          rw [compareLists, Ordering.then_eq_lt, h a List.mem_cons_self b List.mem_cons_self,
            LawfulEqCmp.compare_eq_iff_eq, hrest]
          constructor
          · rintro (hlower | ⟨rfl, hlex⟩)
            · exact .rel hlower
            · exact .cons hlex
          · rintro (_ | hlower | hlex)
            · exact .inl hlower
            · exact .inr ⟨rfl, hlex⟩

theorem comparePrerelease_eq (s t : List (List Char)) :
    comparePrerelease s t =
      (compare s.isEmpty t.isEmpty).then (compareLists comparePrereleaseIdentifier s t) := by
  cases s <;> cases t <;> rfl

instance : TransCmp comparePrerelease := by
  have heq : comparePrerelease =
      compareLex (compareOn List.isEmpty) (compareLists comparePrereleaseIdentifier) :=
    funext fun s => funext (comparePrerelease_eq s)
  rw [heq]
  infer_instance

instance : LawfulEqCmp comparePrerelease where
  eq_of_compare h := by
    rw [comparePrerelease_eq, Ordering.then_eq_eq] at h
    exact LawfulEqCmp.eq_of_compare h.2

/-! ## Versions -/

/-- To compare parts of two things is to compare them. -/
theorem transCmp_on {α β : Type} (compareParts : β → β → Ordering)
    [hparts : TransCmp compareParts] (part : α → β) :
    TransCmp fun a b => compareParts (part a) (part b) where
  eq_swap := hparts.eq_swap
  isLE_trans := hparts.isLE_trans

instance : TransCmp compareVersions := by
  have hprerelease := transCmp_on comparePrerelease Version.prerelease
  have hbuild := transCmp_on (compareLists compareBuildIdentifier) Version.build
  exact inferInstanceAs <| TransCmp <|
    compareLex (compareOn Version.major) <|
    compareLex (compareOn Version.minor) <|
    compareLex (compareOn Version.patch) <|
    compareLex (fun v w => comparePrerelease v.prerelease w.prerelease)
      fun v w => compareLists compareBuildIdentifier v.build w.build

/-- Numbers, pre-release identifiers and build make up the version. -/
theorem SamePrecedence.eq_of_build (h : SamePrecedence v w) (hbuild : v.build = w.build) :
    v = w := by
  obtain ⟨⟨hmajor, hminor, hpatch⟩, hprerelease⟩ := h
  cases v
  cases w
  cases hmajor
  cases hminor
  cases hpatch
  cases hprerelease
  cases hbuild
  rfl

/-- **Different versions are told apart.** -/
theorem eq_of_compareVersions (h : compareVersions v w = .eq) : v = w := by
  simp only [compareVersions, Ordering.then_eq_eq, LawfulEqCmp.compare_eq_iff_eq] at h
  obtain ⟨hmajor, hminor, hpatch, hprerelease, hbuild⟩ := h
  exact SamePrecedence.eq_of_build ⟨⟨hmajor, hminor, hpatch⟩, hprerelease⟩ hbuild

theorem plain_of_allowed (hv : Allowed v) {identifier : List Char}
    (hmem : identifier ∈ v.prerelease) (hnumeric : isNumeric identifier = true) :
    Plain identifier := by
  obtain ⟨hnonempty, hallowed⟩ := hv identifier hmem
  refine ⟨hnumeric, hnonempty, fun hlong hzero => ?_⟩
  rw [allowedPrerelease, hnumeric, hzero, decide_eq_true hlong] at hallowed
  cases hallowed

theorem comparePrereleaseIdentifier_eq_lt_iff (hv : Allowed v) (hw : Allowed w)
    (ha : a ∈ v.prerelease) (hb : b ∈ w.prerelease) :
    comparePrereleaseIdentifier a b = .lt ↔ PrereleaseBelow a b := by
  rw [comparePrereleaseIdentifier_eq, numbersFirst_eq_lt_iff]
  refine below_congr fun hanumeric hbnumeric => ?_
  have haplain := plain_of_allowed hv ha hanumeric
  have hbplain := plain_of_allowed hw hb hbnumeric
  exact compareNumber_eq_lt_iff haplain hbplain

theorem compareBuilds_eq_lt_iff :
    compareLists compareBuildIdentifier v.build w.build = .lt ↔ BuildPrecedes v w := by
  refine compareLists_eq_lt_iff fun a _ b _ => ?_
  rw [compareBuildIdentifier_eq, numbersFirst_eq_lt_iff]
  exact below_congr fun _ _ => compareSpelling_eq_lt_iff

theorem comparePrerelease_eq_lt_iff (hv : Allowed v) (hw : Allowed w) :
    comparePrerelease v.prerelease w.prerelease = .lt ↔
      v.prerelease ≠ [] ∧
        (w.prerelease = [] ∨ List.Lex PrereleaseBelow v.prerelease w.prerelease) := by
  have hlists : compareLists comparePrereleaseIdentifier v.prerelease w.prerelease = .lt ↔
      List.Lex PrereleaseBelow v.prerelease w.prerelease :=
    compareLists_eq_lt_iff fun a ha b hb => comparePrereleaseIdentifier_eq_lt_iff hv hw ha hb
  rw [comparePrerelease_eq, Ordering.then_eq_lt, hlists]
  cases v.prerelease <;> cases w.prerelease <;> simp
  decide

/-- **The order of versions is the precedence, refined by builds** where it is the same. -/
theorem compareVersions_eq_lt_iff (hv : Allowed v) (hw : Allowed w) :
    compareVersions v w = .lt ↔ Precedes v w ∨ SamePrecedence v w ∧ BuildPrecedes v w := by
  rw [compareVersions, Ordering.then_eq_lt, Ordering.then_eq_lt, Ordering.then_eq_lt,
    Ordering.then_eq_lt, Nat.compare_eq_lt, Nat.compare_eq_eq, Nat.compare_eq_lt,
    Nat.compare_eq_eq, Nat.compare_eq_lt, Nat.compare_eq_eq, comparePrerelease_eq_lt_iff hv hw,
    LawfulEqCmp.compare_eq_iff_eq, compareBuilds_eq_lt_iff]
  constructor
  · rintro (h | ⟨hmajor, h | ⟨hminor, h | ⟨hpatch, ⟨hpre, hrelease | hlex⟩ | ⟨hpre, hbuild⟩⟩⟩⟩)
    · exact .inl (.major h)
    · exact .inl (.minor hmajor h)
    · exact .inl (.patch hmajor hminor h)
    · exact .inl (.release ⟨hmajor, hminor, hpatch⟩ hpre hrelease)
    · exact .inl (.prerelease ⟨hmajor, hminor, hpatch⟩ hpre hlex)
    · exact .inr ⟨⟨⟨hmajor, hminor, hpatch⟩, hpre⟩, hbuild⟩
  · rintro ((h | ⟨hmajor, h⟩ | ⟨hmajor, hminor, h⟩ | ⟨⟨hmajor, hminor, hpatch⟩, hpre, hrelease⟩ |
      ⟨⟨hmajor, hminor, hpatch⟩, hpre, hlex⟩) | ⟨⟨⟨hmajor, hminor, hpatch⟩, hpre⟩, hbuild⟩)
    · exact .inl h
    · exact .inr ⟨hmajor, .inl h⟩
    · exact .inr ⟨hmajor, .inr ⟨hminor, .inl h⟩⟩
    · exact .inr ⟨hmajor, .inr ⟨hminor, .inr ⟨hpatch, .inl ⟨hpre, .inl hrelease⟩⟩⟩⟩
    · exact .inr ⟨hmajor, .inr ⟨hminor, .inr ⟨hpatch, .inl ⟨hpre, .inr hlex⟩⟩⟩⟩
    · exact .inr ⟨hmajor, .inr ⟨hminor, .inr ⟨hpatch, .inr ⟨hpre, hbuild⟩⟩⟩⟩

/-- A version does not precede one that has the same precedence. -/
theorem SamePrecedence.not_precedes (h : SamePrecedence v w) : ¬Precedes v w := by
  obtain ⟨⟨hmajor, hminor, hpatch⟩, hprerelease⟩ := h
  rintro (h | ⟨-, h⟩ | ⟨-, -, h⟩ | ⟨-, hv, hw⟩ | ⟨-, -, h⟩)
  · exact Nat.ne_of_lt h hmajor
  · exact Nat.ne_of_lt h hminor
  · exact Nat.ne_of_lt h hpatch
  · exact hv (hprerelease.trans hw)
  · rw [hprerelease] at h
    exact List.lex_irrefl (below_irrefl fun a => Nat.lt_irrefl _) _ h

theorem SamePrecedence.symm (h : SamePrecedence v w) : SamePrecedence w v where
  major := h.major.symm
  minor := h.minor.symm
  patch := h.patch.symm
  prerelease := h.prerelease.symm

/-- **It is the precedence itself** if versions of the same precedence have the same build. -/
theorem compareVersions_eq_lt_iff_precedes (hv : Allowed v) (hw : Allowed w)
    (h : SamePrecedence v w → v.build = w.build) :
    compareVersions v w = .lt ↔ Precedes v w := by
  rw [compareVersions_eq_lt_iff hv hw]
  refine ⟨fun hlt => hlt.elim id fun ⟨hsame, hbuild⟩ => ?_, .inl⟩
  have hlower := compareBuilds_eq_lt_iff.mpr hbuild
  -- A build is not below itself.
  rw [h hsame] at hlower
  have hsame : compareLists compareBuildIdentifier w.build w.build = .eq := ReflCmp.compare_self
  cases hsame.symm.trans hlower

end Placement.Version
