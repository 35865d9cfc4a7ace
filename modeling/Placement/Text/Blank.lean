import Placement.Text.Ranges
/-! # White space of all scripts -/
namespace Placement
namespace Blank

/-- The code points of the class, as ranges with both ends included. -/
def ranges : List (Nat × Nat) := [
    (0x9, 0xD), (0x20, 0x20), (0x85, 0x85), (0xA0, 0xA0), (0x1680, 0x1680), (0x2000, 0x200A),
    (0x2028, 0x2029), (0x202F, 0x202F), (0x205F, 0x205F), (0x3000, 0x3000) ]

/-- Whether the character is white space. -/
def contains (c : Char) : Bool := Ranges.contains ranges c.toNat

/-- Every blank of plain text is among them. -/
theorem contains_of_isWhitespace {c : Char} (h : c.isWhitespace = true) : contains c = true := by
  simp only [Char.isWhitespace, Bool.or_eq_true, decide_eq_true_eq] at h
  rcases h with ((rfl | rfl) | rfl) | rfl <;> decide

end Blank
end Placement
