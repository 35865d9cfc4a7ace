import Placement.Digest
/-! # Experiments and variants

A rule belongs to an experiment, and every user who matches it is given one of
the experiment's variants: a treatment, which shows a paywall, or a holdout,
which shows none.

The choice is a partition.  The user's **seed**, a number below 100, is scaled to
the total weight of the variants, and each variant owns the points from the
weights before it up to its own.
-/
namespace Placement

/-- Names an experiment. -/
abbrev ExperimentId := String

/-- Names a group of experiments. -/
abbrev ExperimentGroupId := String

/-- Names a variant within its experiment. -/
abbrev VariantId := String

/-- What a variant does. -/
inductive VariantType
  /-- Shows a paywall. -/
  | treatment
  /-- Withholds a paywall, for comparison. -/
  | holdout
  deriving DecidableEq

/-- A variant that a user is assigned to. -/
structure Variant where
  id : VariantId
  type : VariantType
  paywallId : Option String
  deriving DecidableEq

/-- A variant that can be chosen, with its weight among the others. -/
structure VariantOption where
  id : VariantId
  type : VariantType
  weight : UInt32
  paywallId : Option String
  deriving DecidableEq

/-- An experiment with the variant the user is assigned to. -/
structure Experiment where
  id : ExperimentId
  groupId : ExperimentGroupId
  variant : Variant
  deriving DecidableEq

/-- An assignment that the server decided. -/
structure ServerAssignment where
  experimentId : ExperimentId
  variantId : VariantId
  deriving DecidableEq

namespace VariantOption

/-- A treatment with its paywall. -/
def treatment (id : VariantId) (weight : UInt32) (paywallId : String) : VariantOption :=
  ⟨id, .treatment, weight, some paywallId⟩

/-- A holdout. -/
def holdout (id : VariantId) (weight : UInt32) : VariantOption := ⟨id, .holdout, weight, none⟩

/-- The variant without its weight. -/
def toVariant (option : VariantOption) : Variant := ⟨option.id, option.type, option.paywallId⟩

end VariantOption

/-- The number that decides which variants a user gets. -/
structure Seed where
  value : Nat
  inRange : value < 100
  deriving DecidableEq

namespace Seed

instance : Inhabited Seed := ⟨⟨0, by decide⟩⟩

/-- The seed `value`, if there is one. -/
def ofNat? (value : Nat) : Option Seed := if h : value < 100 then some ⟨value, h⟩ else none

/-- The seed of a user, the same on every device: the first four bytes of the digest
of the user's name, the highest first, reduced to the range of seeds. -/
def ofUserId (userId : String) : Seed :=
  let n := ((Digest.md5 userId.toUTF8.toList).take 4).foldl (fun n b => n * 256 + b.toNat) 0
  ⟨n % 100, Nat.mod_lt _ (by decide)⟩

end Seed

/-- Why no variant can be chosen. -/
inductive AssignmentFault
  /-- The experiment has no variants. -/
  | noVariants
  deriving DecidableEq

/-- The text of an assignment fault. -/
def AssignmentFault.message : AssignmentFault → String
  | .noVariants => "no variants found"

namespace VariantOption

/-- The sum of the weights. -/
def totalWeight (options : List VariantOption) : UInt64 :=
  options.foldl (fun total option => total + option.weight.toUInt64) 0

/-- The first variant whose weight, added to `before`, is above the point. -/
def atPoint? (point : UInt64) : UInt64 → List VariantOption → Option VariantOption
  | _, [] => none
  | before, option :: rest =>
      let cumulative := before + option.weight.toUInt64
      if point < cumulative then some option else atPoint? point cumulative rest

/-- **The variant that a seed chooses.**  If no variant has weight, it is the first. -/
def choose (options : List VariantOption) (seed : Seed) : Except AssignmentFault VariantOption :=
  match options with
  | [] => .error .noVariants
  | first :: _ =>
      let total := totalWeight options
      if total = 0 then .ok first
      else
        let point := UInt64.ofNat seed.value * total / 100
        .ok ((atPoint? point 0 options).getD first)

end VariantOption
end Placement
