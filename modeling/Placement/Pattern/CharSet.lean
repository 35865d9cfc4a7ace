import Placement.Text.Blank
import Placement.Text.Digit
import Placement.Text.Folding
import Placement.Text.Word
/-! # Sets of characters in patterns

A set is the list of its ranges of code points, ascending and with a gap between
each and the next, so that two sets with the same characters are equal.  The code
points of surrogates, which are no characters, belong to no set.
-/
namespace Placement

/-- A set of characters, as patterns write them. -/
structure CharSet where
  ranges : List (Nat × Nat)
  deriving Repr, DecidableEq

namespace CharSet

/-- Whether the set holds the character. -/
def contains (s : CharSet) (c : Char) : Bool := Ranges.contains s.ranges c.toNat

/-- The set without characters. -/
def none : CharSet := ⟨[]⟩

/-- All characters that are not in the set. -/
def complement (s : CharSet) : CharSet :=
  ⟨Ranges.gaps 0 0x10FFFF (Ranges.insert 0xD800 0xDFFF s.ranges)⟩

/-- All characters. -/
def any : CharSet := none.complement

/-- The characters of either set. -/
def union (s t : CharSet) : CharSet :=
  ⟨t.ranges.foldl (fun ranges range => Ranges.insert range.1 range.2 ranges) s.ranges⟩

/-- The characters of both sets. -/
def inter (s t : CharSet) : CharSet := (s.complement.union t.complement).complement

/-- The characters of the first set that are not in the second. -/
def diff (s t : CharSet) : CharSet := s.inter t.complement

/-- The characters of exactly one of the sets. -/
def symmDiff (s t : CharSet) : CharSet := (s.diff t).union (t.diff s)

/-- All characters from the first to the second. -/
def range (first last : Char) : CharSet := any.inter ⟨[(first.toNat, last.toNat)]⟩

/-- One character. -/
def single (c : Char) : CharSet := ⟨[(c.toNat, c.toNat)]⟩

/-- The characters of words. -/
def word : CharSet := ⟨Word.ranges⟩

/-- The decimal digits of all scripts. -/
def digit : CharSet := ⟨Digit.ranges⟩

/-- White space. -/
def blank : CharSet := ⟨Blank.ranges⟩

/-- All characters that are, up to case, in the set: those of the set, their folded
forms, and all other letters with these forms. -/
def folded (s : CharSet) : CharSet :=
  let add := fun (ranges : List (Nat × Nat)) (code : Nat) => Ranges.insert code code ranges
  let down := Folding.pairs.foldl
    (fun ranges pair => if Ranges.contains s.ranges pair.1 then add ranges pair.2 else ranges)
    s.ranges
  ⟨Folding.pairs.foldl
    (fun ranges pair => if Ranges.contains down pair.2 then add ranges pair.1 else ranges) down⟩

/-- The only character of a set that has just one. -/
def single? (s : CharSet) : Option Char :=
  match s.ranges with
  | [(first, last)] => if first = last then some (Char.ofNat first) else Option.none
  | _ => Option.none

/-- The sets of plain characters that have a name of their own. -/
def ofName? (name : String) : Option CharSet :=
  let ranges : List (Char × Char) → CharSet :=
    List.foldr (fun r s => union ⟨[(r.1.toNat, r.2.toNat)]⟩ s) none
  match name with
  | "alnum" => some (ranges [('0', '9'), ('A', 'Z'), ('a', 'z')])
  | "alpha" => some (ranges [('A', 'Z'), ('a', 'z')])
  | "ascii" => some (ranges [('\x00', '\x7f')])
  | "blank" => some (ranges [('\t', '\t'), (' ', ' ')])
  | "cntrl" => some (ranges [('\x00', '\x1f'), ('\x7f', '\x7f')])
  | "digit" => some (ranges [('0', '9')])
  | "graph" => some (ranges [('!', '~')])
  | "lower" => some (ranges [('a', 'z')])
  | "print" => some (ranges [(' ', '~')])
  | "punct" => some (ranges [('!', '/'), (':', '@'), ('[', '`'), ('\x7b', '~')])
  | "space" => some (ranges [('\t', '\r'), (' ', ' ')])
  | "upper" => some (ranges [('A', 'Z')])
  | "word" => some (ranges [('0', '9'), ('A', 'Z'), ('_', '_'), ('a', 'z')])
  | "xdigit" => some (ranges [('0', '9'), ('A', 'F'), ('a', 'f')])
  | _ => Option.none

example : (range 'a' 'z').complement.inter (range 'A' 'z') = ⟨[(65, 96)]⟩ := by decide
example : (single 'k').folded = ⟨[(75, 75), (107, 107), (0x212A, 0x212A)]⟩ := by decide +kernel

end CharSet
end Placement
