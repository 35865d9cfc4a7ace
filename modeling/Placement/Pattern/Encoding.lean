import Placement.Pattern.CharSet
/-! # Characters as sequences of bytes

A character takes one to four bytes: a leading one, whose mark tells how many more
there are, and six bits in each of the others.  A range of characters falls into
**runs**, each of which has a range for its first byte, a range for its second byte,
and so on, and holds every combination of them.
-/
namespace Placement

/-- One range of bytes for each byte of an encoding. -/
abbrev ByteRun := List (Nat × Nat)

namespace ByteRun

/-- The runs of the numbers from `first` to `last`, each written as a leading digit with
`mark` added and so many further digits of six bits. -/
def ofDigits : Nat → Nat → Nat → Nat → List ByteRun
  | mark, 0, first, last => [[(mark + first, mark + last)]]
  | mark, count + 1, first, last =>
      let size := 1 <<< (6 * (count + 1))
      let lead := fun (a b first last : Nat) =>
        (ofDigits 0x80 count first last).map ((mark + a, mark + b) :: ·)
      let a := first / size
      let b := last / size
      if a = b then lead a b (first % size) (last % size)
      else
        let start := if first % size = 0 then a else a + 1
        let stop := if last % size = size - 1 then b + 1 else b
        (if a < start then lead a a (first % size) (size - 1) else []) ++
          (if start < stop then lead start (stop - 1) 0 (size - 1) else []) ++
          (if stop ≤ b then lead b b 0 (last % size) else [])

/-- The runs of a range of characters. -/
def ofRange (first last : Nat) : List ByteRun :=
  [(0, 0x7F, 0, 0), (0x80, 0x7FF, 0xC0, 1), (0x800, 0xFFFF, 0xE0, 2),
    (0x10000, 0x10FFFF, 0xF0, 3)].flatMap fun (least, most, mark, count) =>
      let a := max first least
      let b := min last most
      if a ≤ b then ofDigits mark count a b else []

/-- Runs with the same first range, under that range and without it. -/
def byFirst : List ByteRun → List ((Nat × Nat) × List ByteRun)
  | [] => []
  | [] :: runs => byFirst runs
  | (range :: rest) :: runs =>
      match byFirst runs with
      | (next, rests) :: more =>
          if next = range then (range, rest :: rests) :: more
          else (range, [rest]) :: (next, rests) :: more
      | [] => [(range, [rest])]

example : ofRange 0x40 0x7FF = [[(0x40, 0x7F)], [(0xC2, 0xDF), (0x80, 0xBF)]] := by decide
example : ofRange 0x7C0 0x840 =
    [[(0xDF, 0xDF), (0x80, 0xBF)], [(0xE0, 0xE0), (0xA0, 0xA0), (0x80, 0xBF)],
      [(0xE0, 0xE0), (0xA1, 0xA1), (0x80, 0x80)]] := by
  decide

end ByteRun

namespace CharSet

/-- The runs of a set. -/
def byteRuns (s : CharSet) : List ByteRun :=
  s.ranges.flatMap fun (first, last) => ByteRun.ofRange first last

end CharSet
end Placement
