/-! # Memories with a fixed number of places

A memory of this kind keeps numbers under keys, and never more of them than it has
places.  The place of a key is computed from the key alone, so **what is kept last under
a place is what is found there**: a key is forgotten when another one with the same place
is kept.
-/
namespace Placement

/-- For each place the key and the number that were kept last. -/
structure Recent where
  places : Array (Option (List Nat × Nat))

namespace Recent

/-- Nothing is kept yet. -/
def empty (size : Nat) : Recent := ⟨Array.replicate size none⟩

/-- The numbers of a key mixed into one of 64 bits: each is taken in by an exclusive or
and a multiplication. -/
def mix (key : List Nat) : UInt64 :=
  key.foldl (fun mixed n => (mixed ^^^ UInt64.ofNat n) * 0x100000001B3) 0xCBF29CE484222325

/-- The place of a key. -/
def place (r : Recent) (key : List Nat) : Nat := (mix key).toNat % r.places.size

/-- The number that is kept under the key. -/
def find? (r : Recent) (key : List Nat) : Option Nat :=
  match r.places.getD (r.place key) none with
  | some (kept, number) => if kept = key then some number else none
  | none => none

/-- Keep a number under the key. -/
def keep (r : Recent) (key : List Nat) (number : Nat) : Recent :=
  ⟨r.places.setIfInBounds (r.place key) (some (key, number))⟩

theorem place_keep (r : Recent) (key other : List Nat) (number : Nat) :
    (r.keep key number).place other = r.place other := by
  simp [keep, place]

theorem find?_keep_self (r : Recent) (key : List Nat) (number : Nat) (h : 0 < r.places.size) :
    (r.keep key number).find? key = some number := by
  have hlt : r.place key < r.places.size := Nat.mod_lt _ h
  unfold find?
  rw [place_keep]
  simp [keep, hlt]

theorem find?_keep_of_place_ne (r : Recent) (key other : List Nat) (number : Nat)
    (h : r.place other ≠ r.place key) : (r.keep key number).find? other = r.find? other := by
  unfold find?
  rw [place_keep]
  simp [keep, Array.getElem?_setIfInBounds_ne h.symm]

example : mix [] = 0xCBF29CE484222325 := by decide
example : mix [97] = 0xAF63DC4C8601EC8C := by decide

end Recent
end Placement
