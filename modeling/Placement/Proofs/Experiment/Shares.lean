import Mathlib.Algebra.Order.Field.Rat
import Mathlib.Order.Interval.Finset.Nat
import Mathlib.Tactic.FieldSimp
import Mathlib.Tactic.Linarith
import Placement.Experiment
/-! # The shares of variants

A seed `s` below 100 stands for the point `s * T / 100` of the total weight `T`.  Each variant
owns the points from the weights before it up to its own (`VariantOption.Owns`), and
`choose` returns **the variant that owns the seed**: there is exactly one.

Points are rounded down, and compared with whole numbers, so nothing is lost by rounding.
From the intervals follows what a maintainer expects of them: a variant without weight is never
chosen, larger seeds choose later variants, only the ratios of weights count, and each
variant gets its share of the seeds up to less than one (`Proportional`).
-/
namespace Placement.VariantOption
variable {options scaled : List VariantOption} {s t i j : Nat}

/-- The weights as numbers. -/
def weights (options : List VariantOption) : List Nat :=
  options.map fun option => option.weight.toNat

/-- The weight of all variants together. -/
def total (options : List VariantOption) : Nat := (weights options).sum

/-- The weight of the first `i` variants together. -/
def cumulative (options : List VariantOption) (i : Nat) : Nat := ((weights options).take i).sum

/-- **A seed lies in the interval of the variant at a place.** -/
def Owns (options : List VariantOption) (seed i : Nat) : Prop :=
  100 * cumulative options i ≤ seed * total options ∧
    seed * total options < 100 * cumulative options (i + 1)

instance (options : List VariantOption) (seed i : Nat) : Decidable (Owns options seed i) :=
  inferInstanceAs (Decidable (_ ∧ _))

/-- The same variants, with all weights multiplied by one factor. -/
def ScaledBy (factor : Nat) (options scaled : List VariantOption) : Prop :=
  scaled.map toVariant = options.map toVariant ∧
    weights scaled = (weights options).map (factor * ·)

/-- **Seeds are divided among variants in proportion to their weights.** -/
structure Proportional (options : List VariantOption) : Prop where
  /-- Each seed has one owner, which is chosen; the search does not fall through. -/
  owner : ∀ seed : Seed, ∃ i option, options[i]? = some option ∧
    (∀ j, Owns options seed.value j ↔ j = i) ∧
    atPoint? (UInt64.ofNat seed.value * totalWeight options / 100) 0 options = some option ∧
    choose options seed = .ok option
  /-- What is chosen has weight. -/
  weighty : ∀ seed option, choose options seed = .ok option → 0 < option.weight.toNat
  /-- A larger seed does not choose an earlier variant. -/
  monotone : ∀ (s t : Seed) (i j : Nat), s.value ≤ t.value → Owns options s.value i →
    Owns options t.value j → i ≤ j
  /-- A common factor of the weights does not count. -/
  scale : ∀ (factor : Nat) (scaled : List VariantOption), 0 < factor →
    ScaledBy factor options scaled → 99 * total scaled < 2 ^ 64 → ∀ seed : Seed,
      (∀ i, Owns scaled seed.value i ↔ Owns options seed.value i) ∧
      (choose scaled seed).map toVariant = (choose options seed).map toVariant
  /-- The number of seeds that a variant owns is its share of them, up to less than one. -/
  share : ∀ (i : Nat) (option : VariantOption), options[i]? = some option →
    |(((Finset.range 100).filter (Owns options · i)).card : ℚ)
      - 100 * option.weight.toNat / total options| < 1

/-! ## Sums of weights -/

theorem cumulative_zero (options : List VariantOption) : cumulative options 0 = 0 := rfl

theorem cumulative_cons (option : VariantOption) (rest : List VariantOption) (i : Nat) :
    cumulative (option :: rest) (i + 1) = option.weight.toNat + cumulative rest i := by
  rw [cumulative, weights, List.map_cons, List.take_succ_cons, List.sum_cons]
  rfl

theorem total_cons (option : VariantOption) (rest : List VariantOption) :
    total (option :: rest) = option.weight.toNat + total rest := by
  rw [total, weights, List.map_cons, List.sum_cons]
  rfl

theorem cumulative_succ {option : VariantOption} (h : options[i]? = some option) :
    cumulative options (i + 1) = cumulative options i + option.weight.toNat := by
  have hweight : (weights options)[i]? = some option.weight.toNat := by
    rw [weights, List.getElem?_map, h]
    rfl
  rw [cumulative, List.take_add_one, hweight, List.sum_append]
  rfl

theorem cumulative_le_total (options : List VariantOption) (i : Nat) :
    cumulative options i ≤ total options := by
  have hsplit := congrArg List.sum (List.take_append_drop i (weights options))
  rw [List.sum_append] at hsplit
  rw [cumulative, total]
  omega

theorem cumulative_mono (options : List VariantOption) (h : i ≤ j) :
    cumulative options i ≤ cumulative options j := by
  obtain ⟨d, rfl⟩ := Nat.exists_eq_add_of_le h
  rw [cumulative, cumulative, List.take_add, List.sum_append]
  exact Nat.le_add_right _ _

/-- The sum that is kept in 64 bits is the sum, if it fits. -/
theorem toNat_totalWeight (h : total options < 2 ^ 64) :
    (totalWeight options).toNat = total options := by
  suffices hgo : ∀ (options : List VariantOption) (start : UInt64),
      start.toNat + total options < 2 ^ 64 →
      (options.foldl (fun total option => total + option.weight.toUInt64) start).toNat =
        start.toNat + total options by
    rw [totalWeight, hgo options 0 (by simpa using h)]
    exact Nat.zero_add _
  intro options
  induction options with
  | nil => exact fun _ _ => rfl
  | cons option rest ih =>
      intro start hstart
      rw [total_cons] at hstart ⊢
      have hadd : (start + option.weight.toUInt64).toNat =
          start.toNat + option.weight.toNat := by
        rw [UInt64.toNat_add, UInt32.toNat_toUInt64, Nat.mod_eq_of_lt (by omega)]
      rw [List.foldl_cons, ih _ (by omega), hadd]
      omega

/-! ## The search -/

/-- **The search finds the variant whose interval holds the point.** -/
theorem atPoint?_spec {point before : UInt64} (hfits : before.toNat + total options < 2 ^ 64)
    (hfrom : before.toNat ≤ point.toNat) (hto : point.toNat < before.toNat + total options) :
    ∃ i option, options[i]? = some option ∧ atPoint? point before options = some option ∧
      before.toNat + cumulative options i ≤ point.toNat ∧
      point.toNat < before.toNat + cumulative options (i + 1) := by
  induction options generalizing before with
  | nil => exact absurd hto (Nat.not_lt.mpr hfrom)
  | cons option rest ih =>
      rw [total_cons] at hfits hto
      have hadd : (before + option.weight.toUInt64).toNat =
          before.toNat + option.weight.toNat := by
        rw [UInt64.toNat_add, UInt32.toNat_toUInt64, Nat.mod_eq_of_lt (by omega)]
      rw [atPoint?]
      by_cases hhere : point < before + option.weight.toUInt64
      · rw [if_pos hhere]
        rw [UInt64.lt_iff_toNat_lt, hadd] at hhere
        refine ⟨0, option, rfl, rfl, hfrom, ?_⟩
        rw [cumulative_cons, cumulative_zero]
        omega
      · rw [if_neg hhere]
        rw [UInt64.lt_iff_toNat_lt, hadd] at hhere
        obtain ⟨i, found, hplace, hfound, hlow, hhigh⟩ :=
          @ih (before + option.weight.toUInt64) (by omega) (by omega) (by omega)
        refine ⟨i + 1, found, hplace, hfound, ?_, ?_⟩
        · rw [cumulative_cons]
          omega
        · rw [cumulative_cons]
          omega

/-- The point of a seed, rounded down. -/
theorem toNat_point (hfits : 99 * total options < 2 ^ 64) (seed : Seed) :
    (UInt64.ofNat seed.value * totalWeight options / 100).toNat =
      seed.value * total options / 100 := by
  have hseed : seed.value ≤ 99 := Nat.le_of_lt_succ seed.inRange
  have hproduct : seed.value * total options < 2 ^ 64 :=
    Nat.lt_of_le_of_lt (Nat.mul_le_mul_right _ hseed) hfits
  have hvalue : (UInt64.ofNat seed.value).toNat = seed.value :=
    UInt64.toNat_ofNat_of_lt' (by rw [UInt64.size]; omega)
  rw [UInt64.toNat_div, UInt64.toNat_mul, hvalue, toNat_totalWeight (by omega),
    Nat.mod_eq_of_lt hproduct]
  rfl

theorem owns_iff_point :
    Owns options s i ↔ cumulative options i ≤ s * total options / 100 ∧
      s * total options / 100 < cumulative options (i + 1) := by
  rw [Owns]
  omega

/-- An earlier owner has an earlier seed. -/
theorem Owns.le_of_le (hi : Owns options s i) (hj : Owns options t j) (hst : s ≤ t) : i ≤ j := by
  by_contra hlt
  have hcumulative : cumulative options (j + 1) ≤ cumulative options i :=
    cumulative_mono options (Nat.lt_of_not_le hlt)
  have hpoints : s * total options ≤ t * total options := Nat.mul_le_mul_right _ hst
  have hlow := hi.1
  have hhigh := hj.2
  omega

theorem Owns.unique (hi : Owns options s i) (hj : Owns options s j) : j = i :=
  Nat.le_antisymm (hj.le_of_le hi (Nat.le_refl s)) (hi.le_of_le hj (Nat.le_refl s))

/-- **A seed has an owner, and it is found.** -/
theorem atPoint?_owner (hpos : 0 < total options) (hfits : 99 * total options < 2 ^ 64)
    (seed : Seed) :
    ∃ i option, options[i]? = some option ∧ Owns options seed.value i ∧
      atPoint? (UInt64.ofNat seed.value * totalWeight options / 100) 0 options = some option := by
  have hpoint := toNat_point hfits seed
  have hbelow : seed.value * total options < total options * 100 := by
    rw [Nat.mul_comm]
    exact Nat.mul_lt_mul_of_pos_left seed.inRange hpos
  obtain ⟨i, option, hplace, hfound, hlow, hhigh⟩ := @atPoint?_spec options
    (UInt64.ofNat seed.value * totalWeight options / 100) 0
    (by rw [UInt64.toNat_zero]; omega) (Nat.zero_le _)
    (by rw [hpoint, UInt64.toNat_zero]; omega)
  rw [hpoint, UInt64.toNat_zero, Nat.zero_add] at hlow hhigh
  exact ⟨i, option, hplace, owns_iff_point.mpr ⟨hlow, hhigh⟩, hfound⟩

/-- What is found is chosen. -/
theorem choose_of_atPoint? {option : VariantOption} (hpos : 0 < total options)
    (hfits : 99 * total options < 2 ^ 64) {seed : Seed}
    (hfound : atPoint? (UInt64.ofNat seed.value * totalWeight options / 100) 0 options =
      some option) : choose options seed = .ok option := by
  have hweight : ¬totalWeight options = 0 := by
    intro hzero
    have htotal : (totalWeight options).toNat = total options := toNat_totalWeight (by omega)
    rw [hzero, UInt64.toNat_zero] at htotal
    omega
  cases options with
  | nil => exact absurd hpos (Nat.lt_irrefl 0)
  | cons first rest =>
      rw [choose, if_neg hweight]
      exact congrArg (fun found => Except.ok (found.getD first)) hfound

theorem Owns.weight_pos {option : VariantOption} (h : Owns options s i)
    (hplace : options[i]? = some option) : 0 < option.weight.toNat := by
  have hnext := cumulative_succ hplace
  have hlow := h.1
  have hhigh := h.2
  omega

/-! ## A common factor -/

theorem sum_map_mul (factor : Nat) (weights : List Nat) :
    (weights.map (factor * ·)).sum = factor * weights.sum := by
  induction weights with
  | nil => rfl
  | cons weight rest ih => rw [List.map_cons, List.sum_cons, List.sum_cons, ih, Nat.mul_add]

theorem ScaledBy.total_eq {factor : Nat} (h : ScaledBy factor options scaled) :
    total scaled = factor * total options := by
  rw [total, h.2, sum_map_mul, total]

theorem ScaledBy.cumulative_eq {factor : Nat} (h : ScaledBy factor options scaled) (i : Nat) :
    cumulative scaled i = factor * cumulative options i := by
  rw [cumulative, h.2, ← List.map_take, sum_map_mul, cumulative]

theorem ScaledBy.owns_iff {factor : Nat} (h : ScaledBy factor options scaled)
    (hpos : 0 < factor) (s i : Nat) : Owns scaled s i ↔ Owns options s i := by
  rw [Owns, Owns, h.total_eq, h.cumulative_eq, h.cumulative_eq, Nat.mul_left_comm s,
    Nat.mul_left_comm 100, Nat.mul_left_comm 100, Nat.mul_le_mul_left_iff hpos,
    Nat.mul_lt_mul_left hpos]

/-- The variants at one place are the same. -/
theorem ScaledBy.toVariant_eq {factor : Nat} (h : ScaledBy factor options scaled)
    {option other : VariantOption} (hoption : options[i]? = some option)
    (hother : scaled[i]? = some other) : other.toVariant = option.toVariant := by
  have hplace := congrArg (·[i]?) h.1
  rw [List.getElem?_map, List.getElem?_map, hoption, hother] at hplace
  exact Option.some.inj hplace

/-! ## Counting seeds -/

/-- Of the numbers below 100 those that some multiples hold are as many as expected, up to
less than one. -/
theorem card_multiples {total low high : Nat} (hpos : 0 < total) (hle : low ≤ high)
    (hhigh : high ≤ 100 * total) :
    let count := ((Finset.range 100).filter fun s => low ≤ s * total ∧ s * total < high).card
    total * count + low < high + total ∧ high < total * count + low + total := by
  -- Both ends are rounded up to the first seed that is not below them.
  have hfirst : ∀ bound s, (bound + total - 1) / total ≤ s ↔ bound ≤ s * total := by
    intro bound s
    rw [Nat.div_le_iff_le_mul_add_pred hpos, Nat.mul_comm total s]
    omega
  have hset : ((Finset.range 100).filter fun s => low ≤ s * total ∧ s * total < high) =
      Finset.Ico ((low + total - 1) / total) ((high + total - 1) / total) := by
    ext s
    have hlast : s < (high + total - 1) / total ↔ s * total < high := by
      rw [← Nat.not_le, hfirst, Nat.not_le]
    rw [Finset.mem_filter, Finset.mem_range, Finset.mem_Ico, hfirst, hlast, and_iff_right_iff_imp]
    rintro ⟨-, hs⟩
    exact Nat.lt_of_mul_lt_mul_right (hs.trans_le hhigh)
  have hround : ∀ bound, bound ≤ total * ((bound + total - 1) / total) ∧
      total * ((bound + total - 1) / total) < bound + total := by
    intro bound
    have hdiv := Nat.div_add_mod (bound + total - 1) total
    have hmod := Nat.mod_lt (bound + total - 1) hpos
    omega
  have hends : (low + total - 1) / total ≤ (high + total - 1) / total :=
    Nat.div_le_div_right (by omega)
  intro count
  have hcount : total * count = total * ((high + total - 1) / total) -
      total * ((low + total - 1) / total) := by
    rw [← Nat.mul_sub, ← Nat.card_Ico, ← hset]
  have hends := Nat.mul_le_mul_left total hends
  have hlow := hround low
  have hhigh := hround high
  omega

theorem abs_sub_div_lt_one {total count weight : Nat} (hpos : 0 < total)
    (h : total * count < 100 * weight + total ∧ 100 * weight < total * count + total) :
    |(count : ℚ) - 100 * weight / total| < 1 := by
  have hpos' : (0 : ℚ) < total := by exact_mod_cast hpos
  have hless : (total : ℚ) * count < 100 * weight + total := by exact_mod_cast h.1
  have hmore : (100 : ℚ) * weight < total * count + total := by exact_mod_cast h.2
  have hdifference : (count : ℚ) - 100 * weight / total =
      (total * count - 100 * weight) / total := by
    field_simp
  rw [hdifference, abs_lt, lt_div_iff₀ hpos', div_lt_iff₀ hpos']
  constructor
  · linarith
  · linarith

/-! ## The partition -/

theorem proportional (hpos : 0 < total options) (hfits : 99 * total options < 2 ^ 64) :
    Proportional options where
  owner seed := by
    obtain ⟨i, option, hplace, howns, hfound⟩ := atPoint?_owner hpos hfits seed
    refine ⟨i, option, hplace, fun j => ⟨howns.unique, fun hj => hj ▸ howns⟩, hfound, ?_⟩
    exact choose_of_atPoint? hpos hfits hfound
  weighty seed option hchoose := by
    obtain ⟨i, owner, hplace, howns, hfound⟩ := atPoint?_owner hpos hfits seed
    rw [choose_of_atPoint? hpos hfits hfound] at hchoose
    cases hchoose
    exact howns.weight_pos hplace
  monotone s t i j hst hi hj := hi.le_of_le hj hst
  scale factor scaled hfactor hscaled hfits' seed := by
    have hpos' : 0 < total scaled := by
      rw [hscaled.total_eq]
      exact Nat.mul_pos hfactor hpos
    refine ⟨hscaled.owns_iff hfactor seed.value, ?_⟩
    obtain ⟨i, option, hplace, howns, hfound⟩ := atPoint?_owner hpos hfits seed
    obtain ⟨j, other, hplace', howns', hfound'⟩ := atPoint?_owner hpos' hfits' seed
    rw [hscaled.owns_iff hfactor] at howns'
    obtain rfl := howns.unique howns'
    rw [choose_of_atPoint? hpos hfits hfound, choose_of_atPoint? hpos' hfits' hfound']
    exact congrArg Except.ok (hscaled.toVariant_eq hplace hplace')
  share i option hplace := by
    have hnext := cumulative_succ hplace
    have hcount := card_multiples hpos
      (Nat.mul_le_mul_left 100 (cumulative_mono options (Nat.le_succ i)))
      (Nat.mul_le_mul_left 100 (cumulative_le_total options (i + 1)))
    refine abs_sub_div_lt_one hpos ?_
    rw [hnext] at hcount
    simp only [Owns, hnext]
    dsimp only at hcount
    omega

/-- **The choice of a variant is the exact partition of the seeds by weight.**  If there is no
weight at all it is the first variant, and without variants there is no choice. -/
theorem choose_partitions_seeds :
    (∀ seed, choose [] seed = .error .noVariants) ∧
      (∀ first rest seed, total (first :: rest) = 0 → choose (first :: rest) seed = .ok first) ∧
      ∀ options, 0 < total options → 99 * total options < 2 ^ 64 → Proportional options := by
  refine ⟨fun _ => rfl, ?_, fun options => proportional⟩
  intro first rest seed hzero
  have hweight : totalWeight (first :: rest) = 0 := by
    rw [← UInt64.toNat_inj, toNat_totalWeight (by omega), hzero]
    rfl
  rw [choose, if_pos hweight]

/-- Two variants and a holdout of which the first has no weight. -/
def thirds : List VariantOption :=
  [.treatment "off" 0 "off", .treatment "gold" 2 "gold", .holdout "none" 1]

/-- The seed 66 is the last one below two thirds. -/
theorem thirds_partitioned :
    Proportional thirds ∧ choose thirds ⟨66, by decide⟩ = .ok (.treatment "gold" 2 "gold") ∧
      choose thirds ⟨67, by decide⟩ = .ok (.holdout "none" 1) ∧
      choose [.holdout "none" 0, .holdout "other" 0] ⟨99, by decide⟩ = .ok (.holdout "none" 0) :=
  ⟨choose_partitions_seeds.2.2 thirds (by decide) (by decide), by decide, by decide,
    choose_partitions_seeds.2.1 _ _ _ (by decide)⟩

end Placement.VariantOption
