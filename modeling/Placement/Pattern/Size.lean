import Placement.Pattern.Machine
import Placement.Pattern.Parts
/-! # The size of patterns

A pattern is admitted only if a machine for it, which reads a text byte by byte, takes
at most ten megabytes, and likewise one that reads backward.  The machine is made part
by part, in the order of the text for the one and against it for the other.  Repetitions
are written out, so a part is made as often as it can be needed; as soon as a machine
gets too large, no more of it is made.
-/
namespace Placement

/-! ## Several texts at once -/

namespace Texts

/-- Texts by their first byte, in the order in which these bytes come first. -/
def byFirst (texts : List (List Nat)) : List (Nat × List (List Nat)) :=
  (texts.filterMap List.head?).eraseDups.map fun first =>
    (first, texts.filterMap fun text =>
      match text with
      | byte :: rest => if byte = first then some rest else none
      | [] => none)

/-- Texts cut into stretches at each empty one. -/
def stretches : List (List Nat) → List (List (List Nat))
  | [] => [[]]
  | [] :: rest => [] :: stretches rest
  | text :: rest =>
      match stretches rest with
      | stretch :: more => (text :: stretch) :: more
      | [] => [[text]]

/-- Of several empty texts at the start, keep one. -/
def joinEmpty : List (List Nat) → List (List Nat)
  | [] :: rest => [] :: rest.dropWhile List.isEmpty
  | texts => texts

/-- Add the part of a machine that reads one of the texts.  Texts that begin alike share
their states as long as none of those between them has ended; `depth` bounds their
length. -/
def addTo : Nat → List (List Nat) → Machine → Machine
  | 0, _, m => m
  | depth + 1, texts, m =>
      if texts.all List.isEmpty then m
      else
        let groups := (stretches (joinEmpty texts)).map byFirst
        let full := (groups.filter fun group => !group.isEmpty).length
        groups.foldl
          (fun m group =>
            let m := match group.length with
              | 0 => m
              | 1 => m.grow 1 0
              | count => m.grow 1 (8 * count)
            group.foldl (fun m (_, rests) => addTo depth rests m) m)
          (m.grow 1 (4 * (full + (groups.length - 1))))

end Texts

namespace Pattern

/-- The bytes of a text, in the order in which they are read. -/
def bytes (direction : Direction) (chars : List Char) : List Nat :=
  let bytes := (String.ofList chars).toUTF8.toList.map UInt8.toNat
  match direction with
  | .forward => bytes
  | .backward => bytes.reverse

/-- The texts to choose from, if the pattern is a choice of texts alone. -/
def texts? (direction : Direction) : Pattern → Option (List (List Nat))
  | .text chars => some [bytes direction chars]
  | .alt p q => do return (← p.texts? direction) ++ (← q.texts? direction)
  | _ => none

/-- Add the part of a machine that reads the pattern, unless the machine gets too large.
For one of several alternatives, `earlier` tells how many come before it: the states at
which the alternatives part and meet are made after the second one. -/
def addTo (direction : Direction) : (earlier : Option Nat) → Pattern → Machine → Option Machine
  | earlier, .alt p q, m =>
      match earlier, texts? direction (.alt p q) with
      | none, some texts =>
          let longest := texts.foldl (fun n text => max n text.length) 0
          (Texts.addTo (longest + 1) texts (m.grow 1 0)).within?
      | _, _ =>
          let first := earlier.getD 0
          (p.addTo direction (some first) m).bind
            (q.addTo direction (some (first + p.alternatives.length)))
  | earlier, p, m =>
      let made :=
        match p with
        | .empty | .anchor _ => m.add? 1 0
        | .text chars => m.add? (bytes direction chars).length 0
        | .one s => (m.readOne direction s).within?
        | .seq p q =>
            match direction with
            | .forward => (p.addTo direction none m).bind (q.addTo direction none)
            | .backward => (q.addTo direction none m).bind (p.addTo direction none)
        | .alt _ _ => none
        | .times p least most _ =>
            m.repeated (p.addTo direction none) (!p.minLength?.any (0 < ·)) least most
        | .group _ p =>
            match direction with
            | .forward => (p.addTo direction none (m.grow 1 0)).bind (·.add? 1 0)
            | .backward => p.addTo direction none m
      match earlier with
      | none => made
      | some 1 => made.bind (·.add? 2 4)
      | some _ => made.bind (·.add? 0 4)

/-- Whether the pattern fits at the start of a text only. -/
def startsText : Pattern → Bool
  | .anchor a => a = .textStart
  | .seq p q => p.startsText || (p.isZeroWidth && q.startsText)
  | .alt p q => p.startsText && q.startsText
  | .times p least _ _ => least ≠ 0 && p.startsText
  | .group _ p => p.startsText
  | _ => false

/-- Whether the pattern fits at the end of a text only. -/
def endsText : Pattern → Bool
  | .anchor a => a = .textEnd
  | .seq p q => q.endsText || (q.isZeroWidth && p.endsText)
  | .alt p q => p.endsText && q.endsText
  | .times p least _ _ => least ≠ 0 && p.endsText
  | .group _ p => p.endsText
  | _ => false

/-- **The machine for a pattern**, unless it is too large.  Unless the pattern fits only
at the end of a text from which the machine reads, it first passes over bytes; the forward
one marks where it begins and ends. -/
def machine? (p : Pattern) : Direction → Option Machine
  | .forward =>
      let start := if p.startsText then Machine.empty.grow 1 0 else Machine.empty.grow 3 16
      (p.addTo .forward none (start.grow 1 0)).bind (·.add? 2 0)
  | .backward =>
      let start := if p.endsText then Machine.empty.grow 1 0 else Machine.empty.grow 3 16
      (p.addTo .backward none start).bind (·.add? 1 0)

/-- Whether the pattern is small enough to be used.  A choice of three thousand texts or
more is read without a machine. -/
def isModest (p : Pattern) : Bool :=
  (texts? .forward p).any (3000 ≤ ·.length) ||
    ((p.machine? .forward).isSome && (p.machine? .backward).isSome)

end Pattern
end Placement
