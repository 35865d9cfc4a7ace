import Placement.Decimal.Notation
import Placement.Decimal.Numeral
import Placement.Proofs.Decimal.Shortest
/-! # Texts of doubles

The text of a double is a sign and a numeral.  **The numeral stands for the shortest decimal
of the double** (`FloatStyle.value_place`), whichever style places its point, and this decimal
rounds to no other double.  So finite doubles have different texts
(`FloatStyle.render_injective`).
-/
namespace Placement
open Float.Model

/-- **A text splits in one way only** into a part with a property and a rest that does not go
on with it. -/
theorem span_append {p : Char → Bool} {text rest : List Char} (htext : ∀ c ∈ text, p c = true)
    (hrest : ∀ c ∈ rest.head?, p c = false) :
    (text ++ rest).takeWhile p = text ∧ (text ++ rest).dropWhile p = rest := by
  rw [List.takeWhile_append_of_pos htext, List.dropWhile_append_of_pos htext]
  cases rest with
  | nil => exact ⟨List.append_nil text, rfl⟩
  | cons c rest =>
      rw [List.takeWhile_cons, List.dropWhile_cons, hrest c rfl, if_neg Bool.false_ne_true,
        if_neg Bool.false_ne_true, List.append_nil]
      exact ⟨rfl, rfl⟩

namespace Numeral
variable {digits whole fraction rest : List Char}

/-! ## What a numeral stands for -/

/-- Decimal digits only. -/
def AllDigits (text : List Char) : Prop := ∀ c ∈ text, c.isDigit = true

/-- The text does not go on with a digit. -/
def Stops (rest : List Char) : Prop := ∀ c ∈ rest.head?, c.isDigit = false

theorem spanDigits_append (hdigits : AllDigits digits) (hrest : Stops rest) :
    spanDigits (digits ++ rest) = (digits, rest) := by
  obtain ⟨htake, hdrop⟩ := span_append hdigits hrest
  rw [spanDigits, htake, hdrop]

theorem spanDigits_digits (hdigits : AllDigits digits) : spanDigits digits = (digits, []) := by
  have hspan : spanDigits (digits ++ []) = (digits, []) := spanDigits_append hdigits nofun
  rwa [List.append_nil] at hspan

theorem allDigits_toDigits (n : ℕ) : AllDigits (Nat.toDigits 10 n) :=
  fun _ hc => Nat.isDigit_of_mem_toDigits (by decide) (by decide) hc

theorem ofDigits_toDigits (n : ℕ) : ofDigits (Nat.toDigits 10 n) = n :=
  Nat.ofDigitChars_toDigits (by decide) (by decide)

theorem ofDigits_append (digits more : List Char) :
    ofDigits (digits ++ more) = ofDigits digits * 10 ^ more.length + ofDigits more := by
  rw [ofDigits, ofDigits, Nat.ofDigitChars_append, Nat.ofDigitChars_eq_ofDigitChars_zero,
    Nat.mul_comm, ofDigits]

theorem ofDigits_replicate (n : ℕ) : ofDigits (List.replicate n '0') = 0 :=
  Nat.ofDigitChars_replicate_zero.trans (Nat.mul_zero _)

/-- The digits after a point, if there is one, and what follows them. -/
def afterPoint : List Char → List Char × List Char
  | '.' :: rest => spanDigits rest
  | rest => ([], rest)

/-- **The number that a numeral stands for**: digits with an optional point and an optional
power of ten. -/
def value (text : List Char) : ℚ :=
  let (whole, rest) := spanDigits text
  let (fraction, rest) := afterPoint rest
  let exponent : ℤ := ((exponent? rest).map Prod.fst).getD 0
  ofDigits (whole ++ fraction) * 10 ^ (exponent - fraction.length)

/-- The characters of a whole number. -/
theorem toList_toString (n : ℤ) :
    (toString n).toList =
      if 0 ≤ n then Nat.toDigits 10 n.toNat else '-' :: Nat.toDigits 10 (-n).toNat := by
  rw [Int.toString_eq_repr, Int.repr_eq_if]
  split
  · rw [Nat.repr_eq_ofList_toDigits, String.toList_ofList]
  · rw [Nat.repr_eq_ofList_toDigits, String.toList_append, String.toList_ofList]
    rw [String.toList_ofList]
    exact List.singleton_append

theorem sign_digits (hdigits : AllDigits digits) : sign digits = (false, digits) := by
  unfold sign
  split
  · exact absurd (hdigits '-' List.mem_cons_self) (by decide)
  · exact absurd (hdigits '+' List.mem_cons_self) (by decide)
  · rfl

theorem exponent?_toString (e : ℤ) : exponent? ('e' :: (toString e).toList) = some (e, []) := by
  have hempty (n : ℕ) : (Nat.toDigits 10 n).isEmpty = false :=
    List.isEmpty_eq_false_iff.mpr Nat.toDigits_ne_nil
  rw [exponent?, if_pos (.inl rfl), toList_toString]
  by_cases hnegative : 0 ≤ e
  · rw [if_pos hnegative, sign_digits (allDigits_toDigits _)]
    dsimp only
    rw [spanDigits_digits (allDigits_toDigits _)]
    dsimp only
    rw [hempty, ofDigits_toDigits]
    simp only [Bool.false_eq_true, if_false, Int.toNat_of_nonneg hnegative]
  · rw [if_neg hnegative, sign]
    dsimp only
    rw [spanDigits_digits (allDigits_toDigits _)]
    dsimp only
    rw [hempty, ofDigits_toDigits]
    simp only [Bool.false_eq_true, if_false, if_true]
    rw [Int.toNat_of_nonneg (by omega), Int.neg_neg]

/-- The characters of numerals. -/
def isNumeral (c : Char) : Bool := c.isDigit || c == '-' || c == '.' || c == 'e'

theorem isNumeral_of_digits (hdigits : AllDigits digits) : ∀ c ∈ digits, isNumeral c = true := by
  intro c hc
  rw [isNumeral, hdigits c hc]
  rfl

theorem isNumeral_toString (n : ℤ) : ∀ c ∈ (toString n).toList, isNumeral c = true := by
  rw [toList_toString]
  split
  · exact isNumeral_of_digits (allDigits_toDigits _)
  · exact List.forall_mem_cons.mpr ⟨by decide, isNumeral_of_digits (allDigits_toDigits _)⟩

theorem toString_ne_nil (n : ℤ) : (toString n).toList ≠ [] := by
  rw [toList_toString]
  split
  · exact Nat.toDigits_ne_nil
  · exact List.cons_ne_nil _ _

/-- Whole numbers have neither point nor power of ten. -/
theorem not_mem_toString (n : ℤ) : '.' ∉ (toString n).toList ∧ 'e' ∉ (toString n).toList := by
  have hnone : ∀ c, c.isDigit = false → c ≠ '-' → c ∉ (toString n).toList := by
    intro c hdigit hminus hmem
    have hdigits : ∀ m, c ∉ Nat.toDigits 10 m := by
      intro m hm
      rw [allDigits_toDigits m c hm] at hdigit
      cases hdigit
    rw [toList_toString] at hmem
    split at hmem
    · exact hdigits _ hmem
    · rcases List.mem_cons.mp hmem with hsign | hmem
      · exact hminus hsign
      · exact hdigits _ hmem
  exact ⟨hnone '.' (by decide) (by decide), hnone 'e' (by decide) (by decide)⟩

theorem toString_injective {m n : ℤ} (h : (toString m).toList = (toString n).toList) : m = n := by
  have hread : exponent? ('e' :: (toString m).toList) = exponent? ('e' :: (toString n).toList) := by
    rw [h]
  rw [exponent?_toString, exponent?_toString] at hread
  cases hread
  rfl

/-- **A numeral by its parts**: a point with digits, or none, and a power of ten, or none. -/
theorem value_parts {point mark : List Char} {e : ℤ} (hwhole : AllDigits whole)
    (hfraction : AllDigits fraction)
    (hpoint : point = '.' :: fraction ∨ point = [] ∧ fraction = [])
    (hmark : mark = 'e' :: (toString e).toList ∨ mark = [] ∧ e = 0) :
    value (whole ++ (point ++ mark)) =
      ofDigits (whole ++ fraction) * 10 ^ (e - fraction.length) := by
  have hstops : Stops mark := by
    rcases hmark with rfl | ⟨rfl, -⟩
    · rintro c ⟨⟩
      decide
    · nofun
  have hexponent : ((exponent? mark).map Prod.fst).getD 0 = e := by
    rcases hmark with rfl | ⟨rfl, rfl⟩
    · rw [exponent?_toString]
      rfl
    · rfl
  have hspan : spanDigits (whole ++ (point ++ mark)) = (whole, point ++ mark) := by
    refine spanDigits_append hwhole ?_
    rcases hpoint with rfl | ⟨rfl, -⟩
    · rintro c ⟨⟩
      decide
    · exact hstops
  have hafter : afterPoint (point ++ mark) = (fraction, mark) := by
    rcases hpoint with rfl | ⟨rfl, rfl⟩
    · exact spanDigits_append hfraction hstops
    · rcases hmark with rfl | ⟨rfl, -⟩ <;> rfl
  rw [value, hspan]
  dsimp only
  rw [hafter]
  dsimp only
  rw [hexponent]

end Numeral

namespace FloatStyle
open Numeral

theorem allDigits_zeros (n : ℕ) : AllDigits (List.replicate n '0') := by
  intro c hc
  rw [List.eq_of_mem_replicate hc]
  decide

/-- The mark of whole numbers has zeros after its point. -/
theorem exists_zeros (style : FloatStyle) :
    ∃ n, (if style.marksWhole then ['.', '0'] else []) = '.' :: List.replicate n '0' ∨
      (if style.marksWhole then ['.', '0'] else []) = [] ∧ List.replicate n '0' = [] := by
  cases style.marksWhole with
  | true => exact ⟨1, .inl rfl⟩
  | false => exact ⟨0, .inr ⟨rfl, rfl⟩⟩

/-- **Wherever the point is put, the digits stand for the same number.** -/
theorem value_place (style : FloatStyle) {digits : List Char} (hdigits : AllDigits digits)
    (hne : digits ≠ []) (point : ℤ) :
    Numeral.value (style.place digits point) = ofDigits digits * 10 ^ (point - digits.length) := by
  have hlength : 0 < digits.length := List.length_pos_iff.mpr hne
  have htake (n : ℕ) : AllDigits (digits.take n) := fun c hc => hdigits c (List.mem_of_mem_take hc)
  have hdrop (n : ℕ) : AllDigits (digits.drop n) := fun c hc => hdigits c (List.mem_of_mem_drop hc)
  rw [place]
  by_cases hwritten : style.writtenOut point = true
  · rw [if_pos hwritten]
    by_cases hleft : point ≤ 0
    · rw [if_pos hleft]
      have hfraction : AllDigits (List.replicate (-point).toNat '0' ++ digits) :=
        List.forall_mem_append.mpr ⟨allDigits_zeros _, hdigits⟩
      have hparts := value_parts (allDigits_zeros 1) hfraction (.inl rfl) (.inr ⟨rfl, rfl⟩)
      rw [List.append_nil] at hparts
      refine hparts.trans ?_
      rw [ofDigits_append, ofDigits_append, ofDigits_replicate, ofDigits_replicate,
        List.length_append, List.length_replicate, Nat.zero_mul, Nat.zero_mul, Nat.zero_add,
        Nat.zero_add]
      congr 2
      omega
    · rw [if_neg hleft]
      by_cases hinside : point.toNat < digits.length
      · rw [if_pos hinside]
        have hparts := value_parts (htake point.toNat) (hdrop point.toNat) (.inl rfl)
          (.inr ⟨rfl, rfl⟩)
        rw [List.append_nil, List.take_append_drop, List.length_drop] at hparts
        refine hparts.trans ?_
        congr 2
        omega
      · rw [if_neg hinside]
        have hwhole : AllDigits (digits ++ List.replicate (point.toNat - digits.length) '0') :=
          List.forall_mem_append.mpr ⟨hdigits, allDigits_zeros _⟩
        obtain ⟨n, hmarked⟩ := style.exists_zeros
        have hparts := value_parts hwhole (allDigits_zeros n) hmarked (.inr ⟨rfl, rfl⟩)
        rw [List.append_nil] at hparts
        rw [hparts, List.append_assoc, List.replicate_append_replicate, ofDigits_append,
          ofDigits_replicate, List.length_replicate, List.length_replicate, Nat.add_zero,
          Nat.cast_mul, Nat.cast_pow, Nat.cast_ofNat, mul_assoc, ← zpow_natCast,
          ← zpow_add₀ (by norm_num)]
        congr 2
        omega
  · rw [if_neg hwritten]
    dsimp only
    rw [List.append_assoc]
    have hpoint : (if (digits.drop 1).isEmpty then [] else '.' :: digits.drop 1) =
        '.' :: digits.drop 1 ∨
        (if (digits.drop 1).isEmpty then [] else '.' :: digits.drop 1) = [] ∧
          digits.drop 1 = [] := by
      cases hrest : digits.drop 1 with
      | nil => exact .inr ⟨rfl, rfl⟩
      | cons c rest => exact .inl rfl
    rw [value_parts (htake 1) (hdrop 1) hpoint (.inl rfl), List.take_append_drop, List.length_drop]
    congr 2
    omega

/-- A placed point has a digit before it. -/
theorem place_eq_cons (style : FloatStyle) {digits : List Char} (hdigits : AllDigits digits)
    (hne : digits ≠ []) (point : ℤ) :
    ∃ c rest, style.place digits point = c :: rest ∧ c.isDigit = true := by
  obtain ⟨c, more, rfl⟩ := List.exists_cons_of_ne_nil hne
  have hc : c.isDigit = true := hdigits c List.mem_cons_self
  rw [place]
  split
  · split
    · exact ⟨'0', _, rfl, by decide⟩
    · rename_i hleft
      split
      · obtain ⟨n, hn⟩ : ∃ n, point.toNat = n + 1 := ⟨point.toNat - 1, by omega⟩
        rw [hn]
        exact ⟨c, _, rfl, hc⟩
      · exact ⟨c, _, rfl, hc⟩
  · exact ⟨c, _, rfl, hc⟩

theorem isNumeral_place (style : FloatStyle) {digits : List Char} (hdigits : AllDigits digits)
    (point : ℤ) : ∀ c ∈ style.place digits point, isNumeral c = true := by
  have hall := isNumeral_of_digits hdigits
  have hzeros (n : ℕ) := isNumeral_of_digits (allDigits_zeros n)
  have htake (n : ℕ) : ∀ c ∈ digits.take n, isNumeral c = true :=
    fun c hc => hall c (List.mem_of_mem_take hc)
  have hdrop (n : ℕ) : ∀ c ∈ digits.drop n, isNumeral c = true :=
    fun c hc => hall c (List.mem_of_mem_drop hc)
  rw [place]
  split
  · split
    · simp only [List.forall_mem_cons, List.forall_mem_append]
      exact ⟨by decide, by decide, hzeros _, hall⟩
    · split
      · simp only [List.forall_mem_cons, List.forall_mem_append]
        exact ⟨htake _, by decide, hdrop _⟩
      · simp only [List.forall_mem_append]
        refine ⟨⟨hall, hzeros _⟩, ?_⟩
        cases style.marksWhole <;> exact List.all_eq_true.mp rfl
  · simp only [List.forall_mem_cons, List.forall_mem_append]
    refine ⟨⟨htake _, ?_⟩, by decide, isNumeral_toString _⟩
    split
    · nofun
    · exact List.forall_mem_cons.mpr ⟨by decide, hdrop _⟩

/-- If whole numbers are marked, every text has a point or a power of ten. -/
theorem mem_place (style : FloatStyle) (hmarks : style.marksWhole = true) (digits : List Char)
    (point : ℤ) : '.' ∈ style.place digits point ∨ 'e' ∈ style.place digits point := by
  rw [place, hmarks]
  split
  · left
    split
    · exact List.mem_cons_of_mem _ List.mem_cons_self
    · split
      · exact List.mem_append_right _ List.mem_cons_self
      · exact List.mem_append_right _ List.mem_cons_self
  · right
    exact List.mem_append_right _ List.mem_cons_self

/-- The text of a magnitude, without its sign. -/
def numeral (style : FloatStyle) (b : Binary) : List Char :=
  if b.significand = 0 then '0' :: (if style.marksWhole then ['.', '0'] else [])
  else
    let d := Decimal.shortest b
    let digits := Nat.toDigits 10 d.digits
    style.place digits (digits.length + d.exponent)

theorem toList_render (style : FloatStyle) {x : Float} {b : Binary}
    (h : Magnitude.ofFloat x = .finite b) :
    (style.render x).toList = (if b.negative then ['-'] else []) ++ style.numeral b := by
  rw [render, h, numeral]
  dsimp only
  split
  · exact String.toList_ofList
  · exact String.toList_ofList

theorem numeral_eq_cons (style : FloatStyle) (b : Binary) :
    ∃ c rest, style.numeral b = c :: rest ∧ c.isDigit = true := by
  rw [numeral]
  split
  · exact ⟨'0', _, rfl, by decide⟩
  · exact style.place_eq_cons (allDigits_toDigits _) Nat.toDigits_ne_nil _

theorem value_numeral (style : FloatStyle) (b : Binary) :
    Numeral.value (style.numeral b) =
      if b.significand = 0 then 0 else (Decimal.shortest b).value := by
  rw [numeral]
  split
  · obtain ⟨n, hmarked⟩ := style.exists_zeros
    have hparts := value_parts (allDigits_zeros 1) (allDigits_zeros n) hmarked (.inr ⟨rfl, rfl⟩)
    rw [List.append_nil, List.replicate_append_replicate, ofDigits_replicate, Nat.cast_zero,
      zero_mul] at hparts
    exact hparts
  · dsimp only
    rw [value_place style (allDigits_toDigits _) Nat.toDigits_ne_nil, ofDigits_toDigits,
      add_sub_cancel_left, Decimal.value]

theorem isNumeral_numeral (style : FloatStyle) (b : Binary) :
    ∀ c ∈ style.numeral b, isNumeral c = true := by
  rw [numeral]
  split
  · refine List.forall_mem_cons.mpr ⟨by decide, ?_⟩
    cases style.marksWhole <;> exact List.all_eq_true.mp rfl
  · exact style.isNumeral_place (allDigits_toDigits _) _

theorem mem_numeral (style : FloatStyle) (hmarks : style.marksWhole = true) (b : Binary) :
    '.' ∈ style.numeral b ∨ 'e' ∈ style.numeral b := by
  rw [numeral, hmarks]
  split
  · exact .inl (List.mem_cons_of_mem _ List.mem_cons_self)
  · exact style.mem_place hmarks _ _

end FloatStyle

/-! ## Bits -/

namespace Magnitude

/-- **The fields of a finite double**: whether its significand has a leading one shows in the
exponent. -/
theorem fields_of_ofBits {n : ℕ} {b : Binary} (h : ofBits n = .finite b) :
    n.testBit 63 = b.negative ∧ n / 2 ^ 52 % 2048 ≠ 2047 ∧
      (n / 2 ^ 52 % 2048 = 0 ∧ b.significand = n % 2 ^ 52 ∧ b.exponent = -1074 ∨
        n / 2 ^ 52 % 2048 ≠ 0 ∧ b.significand = 2 ^ 52 + n % 2 ^ 52 ∧
          b.exponent = (n / 2 ^ 52 % 2048 : ℕ) - 1075) := by
  have hone : 1 <<< fractionBits = 2 ^ 52 := by decide
  have hshift : n >>> fractionBits = n / 2 ^ 52 := Nat.shiftRight_eq_div_pow ..
  rw [ofBits, hone, hshift] at h
  split at h
  · split at h <;> cases h
  · rename_i hfinite
    split at h
    · rename_i hzero
      cases h
      exact ⟨rfl, hfinite, .inl ⟨hzero, rfl, rfl⟩⟩
    · rename_i hnonzero
      cases h
      exact ⟨rfl, hfinite, .inr ⟨hnonzero, rfl, rfl⟩⟩

/-- **No two doubles have the same sign and magnitude.** -/
theorem eq_of_ofBits_eq {m n : ℕ} (hm : m < 2 ^ 64) (hn : n < 2 ^ 64) {b : Binary}
    (h : ofBits m = .finite b) (h' : ofBits n = .finite b) : m = n := by
  obtain ⟨hsign, -, hfields⟩ := fields_of_ofBits h
  obtain ⟨hsign', -, hfields'⟩ := fields_of_ofBits h'
  have htop : m / 2 ^ 63 % 2 = 1 ↔ n / 2 ^ 63 % 2 = 1 := by
    rw [← hsign', Nat.testBit_eq_decide_div_mod_eq, Nat.testBit_eq_decide_div_mod_eq] at hsign
    exact decide_eq_decide.mp hsign
  omega

/-- A finite double is zero or normal. -/
theorem normal_of_ofBits {n : ℕ} {b : Binary} (h : ofBits n = .finite b) :
    b.significand = 0 ∧ b.exponent = -1074 ∨ b.Normal := by
  obtain ⟨-, hfinite, hfields⟩ := fields_of_ofBits h
  have hfraction : n % 2 ^ 52 < 2 ^ 52 := Nat.mod_lt _ (by decide)
  by_cases hzero : b.significand = 0
  · left
    omega
  · right
    constructor <;> omega

theorem field_of_isFinite {packed : BitVec Format.binary64.numBits}
    (h : (UnpackedFloat.unpack .binary64 packed).isFinite = true) :
    (packed.toNat >>> fractionBits) % 2048 ≠ 2047 := by
  intro hlargest
  have hexponent : (UnpackedFloat.unpackExponent packed).toNat =
      (packed.toNat >>> fractionBits) % 2048 := by
    unfold UnpackedFloat.unpackExponent
    simp only [Nat.reduceAdd, Nat.add_one_sub_one, Nat.reduceSub, BitVec.cast_eq,
      BitVec.extractLsb_toNat, Nat.reducePow]
    rfl
  have hones : UnpackedFloat.unpackExponent packed = -1#11 := by
    refine BitVec.eq_of_toNat_eq ?_
    rw [hexponent, hlargest]
    rfl
  unfold UnpackedFloat.unpack at h
  dsimp only at h
  rw [if_pos hones] at h
  split at h <;> cases h

/-- Finite doubles have a magnitude. -/
theorem exists_of_isFinite {x : Float} (h : x.isFinite = true) : ∃ b, ofFloat x = .finite b := by
  have hfinite : (x.toBits.toNat >>> fractionBits) % 2048 ≠ 2047 :=
    @field_of_isFinite x.toBits.toBitVec h
  rw [ofFloat, ofBits, if_neg hfinite]
  split
  · exact ⟨_, rfl⟩
  · exact ⟨_, rfl⟩

end Magnitude

namespace FloatStyle

/-- A minus is no digit, so the sign can be told from the numeral. -/
theorem sign_append_inj (style : FloatStyle) {b c : Binary}
    (h : (if b.negative then ['-'] else []) ++ style.numeral b =
      (if c.negative then ['-'] else []) ++ style.numeral c) :
    b.negative = c.negative ∧ style.numeral b = style.numeral c := by
  obtain ⟨d, rest, hd, hdigit⟩ := style.numeral_eq_cons b
  obtain ⟨d', rest', hd', hdigit'⟩ := style.numeral_eq_cons c
  rw [hd, hd'] at h ⊢
  cases hb : b.negative <;> cases hc : c.negative <;> rw [hb, hc] at h
  · exact ⟨rfl, h⟩
  · cases h
    exact absurd hdigit (by decide)
  · cases h
    exact absurd hdigit' (by decide)
  · exact ⟨rfl, (List.cons.inj h).2⟩

/-- **The numeral tells the magnitude**, since it stands for a number that rounds to it. -/
theorem numeral_injective (style : FloatStyle) {b c : Binary}
    (hb : b.significand = 0 ∧ b.exponent = -1074 ∨ b.Normal)
    (hc : c.significand = 0 ∧ c.exponent = -1074 ∨ c.Normal)
    (h : style.numeral b = style.numeral c) :
    b.significand = c.significand ∧ b.exponent = c.exponent := by
  have hvalue := congrArg Numeral.value h
  rw [style.value_numeral, style.value_numeral] at hvalue
  rcases hb with ⟨hzero, hexponent⟩ | hnormal <;> rcases hc with ⟨hzero', hexponent'⟩ | hnormal'
  · exact ⟨hzero.trans hzero'.symm, hexponent.trans hexponent'.symm⟩
  · have hpos := (Decimal.shortest_reads hnormal').pos hnormal'
    rw [if_pos hzero, if_neg hnormal'.pos.ne'] at hvalue
    exact absurd hvalue hpos.ne
  · have hpos := (Decimal.shortest_reads hnormal).pos hnormal
    rw [if_neg hnormal.pos.ne', if_pos hzero'] at hvalue
    exact absurd hvalue hpos.ne'
  · rw [if_neg hnormal.pos.ne', if_neg hnormal'.pos.ne'] at hvalue
    have hreads := Decimal.shortest_reads hnormal'
    rw [← hvalue] at hreads
    exact Binary.reads_unique hnormal hnormal' (Decimal.shortest_reads hnormal) hreads

/-- **Finite doubles have different texts**, in every style. -/
theorem render_injective (style : FloatStyle) {x y : Float} (hx : x.isFinite = true)
    (hy : y.isFinite = true) (h : style.render x = style.render y) : x = y := by
  obtain ⟨b, hb⟩ := Magnitude.exists_of_isFinite hx
  obtain ⟨c, hc⟩ := Magnitude.exists_of_isFinite hy
  have htext := congrArg String.toList h
  rw [style.toList_render hb, style.toList_render hc] at htext
  obtain ⟨hsign, hnumeral⟩ := style.sign_append_inj htext
  have hparts := style.numeral_injective (Magnitude.normal_of_ofBits hb)
    (Magnitude.normal_of_ofBits hc) hnumeral
  have hsame : b = c := by
    cases b
    cases c
    congr 1
    · exact hparts.1
    · exact hparts.2
  rw [← hsame] at hc
  have hbits : x.toBits = y.toBits := UInt64.toNat_inj.mp
    (Magnitude.eq_of_ofBits_eq x.toBits.toNat_lt y.toBits.toNat_lt hb hc)
  rcases x with ⟨⟨bits, valid⟩⟩
  rcases y with ⟨⟨bits', valid'⟩⟩
  cases show bits = bits' from hbits
  rfl

/-- **The text of a finite double is a numeral**, and not that of a whole number if these are
marked. -/
theorem render_spec (style : FloatStyle) {x : Float} (hx : x.isFinite = true) :
    (style.render x).toList ≠ [] ∧ (∀ c ∈ (style.render x).toList, Numeral.isNumeral c = true) ∧
      (style.marksWhole = true → ∀ n : ℤ, (style.render x).toList ≠ (toString n).toList) := by
  obtain ⟨b, hb⟩ := Magnitude.exists_of_isFinite hx
  rw [style.toList_render hb]
  refine ⟨?_, ?_, ?_⟩
  · obtain ⟨d, rest, hd, -⟩ := style.numeral_eq_cons b
    rw [hd]
    exact List.append_ne_nil_of_right_ne_nil _ (List.cons_ne_nil _ _)
  · refine List.forall_mem_append.mpr ⟨?_, style.isNumeral_numeral b⟩
    cases b.negative <;> exact List.all_eq_true.mp rfl
  · intro hmarks n h
    obtain ⟨hpoint, hpower⟩ := Numeral.not_mem_toString n
    rw [← h] at hpoint hpower
    rcases style.mem_numeral hmarks b with hmem | hmem
    · exact hpoint (List.mem_append_right _ hmem)
    · exact hpower (List.mem_append_right _ hmem)

end FloatStyle
end Placement
