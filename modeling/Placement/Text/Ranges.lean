/-! # Sets of characters as ranges

A character class of a standard is a list of ranges of code points with both
ends included, in ascending order.  Adding a range to such a list and taking what
a list leaves out keep that form, and keep ranges that touch joined into one, so
that there is one list for each set.
-/
namespace Placement
namespace Ranges

/-- Whether one of the ranges holds the code point. -/
def contains (ranges : List (Nat × Nat)) (code : Nat) : Bool :=
  ranges.any fun range => range.1 ≤ code && code ≤ range.2

theorem contains_iff {ranges : List (Nat × Nat)} {code : Nat} :
    contains ranges code = true ↔ ∃ range ∈ ranges, range.1 ≤ code ∧ code ≤ range.2 := by
  simp [contains, List.any_eq_true]

/-- Add a range to ascending ranges, joining it with those it touches. -/
def insert (first last : Nat) : List (Nat × Nat) → List (Nat × Nat)
  | [] => [(first, last)]
  | range :: rest =>
      if last + 1 < range.1 then (first, last) :: range :: rest
      else if range.2 + 1 < first then range :: insert first last rest
      else insert (min first range.1) (max last range.2) rest

/-- Adding a range adds its code points and no others. -/
theorem contains_insert {ranges : List (Nat × Nat)} {first last : Nat} (h : first ≤ last)
    (ordered : ∀ range ∈ ranges, range.1 ≤ range.2) (code : Nat) :
    contains (insert first last ranges) code =
      ((decide (first ≤ code) && decide (code ≤ last)) || contains ranges code) := by
  induction ranges generalizing first last with
  | nil => simp [insert, contains]
  | cons range rest ih =>
      have here := ordered range (List.mem_cons_self ..)
      have later := fun r hr => ordered r (List.mem_cons_of_mem _ hr)
      unfold insert
      split
      · simp [contains]
      · split
        · have ih := ih h later
          simp only [contains, List.any_cons] at ih ⊢
          rw [ih]
          cases decide (range.1 ≤ code) && decide (code ≤ range.2) <;> simp
        · rw [ih (by omega) later]
          simp only [contains, List.any_cons, ← Bool.or_assoc]
          congr 1
          rw [Bool.eq_iff_iff]
          simp only [Bool.and_eq_true, Bool.or_eq_true, decide_eq_true_eq]
          omega

/-- The code points from `start` to `stop` that ascending ranges leave out. -/
def gaps (start stop : Nat) : List (Nat × Nat) → List (Nat × Nat)
  | [] => if start ≤ stop then [(start, stop)] else []
  | (first, last) :: rest =>
      if start < first then (start, first - 1) :: gaps (last + 1) stop rest
      else gaps (last + 1) stop rest

example : insert 4 6 [(1, 3), (9, 9)] = [(1, 6), (9, 9)] := by decide
example : gaps 0 10 [(1, 6), (9, 9)] = [(0, 0), (7, 8), (10, 10)] := by decide

end Ranges
end Placement
