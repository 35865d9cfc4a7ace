import Placement.Pattern
/-! # Patterns from parts

Patterns are put together from parts and simplified on the way, without a change to
the texts that fit them.  Sequences inside sequences and alternatives inside
alternatives are spread out, neighbouring texts are joined, alternatives that are all
single characters become a set, and what all alternatives begin with comes first.
A repetition of what only fits the empty text needs no second round.
-/
namespace Placement
namespace Pattern

/-! ## Lengths -/

/-- Whether the pattern fits the empty text alone, wherever it fits.  A pattern with a
part that fits nothing does not count. -/
def isZeroWidth : Pattern → Bool
  | .empty | .anchor _ => true
  | .text _ | .one _ => false
  | .seq p q | .alt p q => p.isZeroWidth && q.isZeroWidth
  | .times p _ most _ => p.isZeroWidth && most.isSome
  | .group _ p => p.isZeroWidth

/-- The fewest characters that fit; nothing if some part of the pattern fits no text. -/
def minLength? : Pattern → Option Nat
  | .empty | .anchor _ => some 0
  | .text chars => some chars.length
  | .one s => if s.ranges.isEmpty then none else some 1
  | .seq p q => do return (← p.minLength?) + (← q.minLength?)
  | .alt p q => do return min (← p.minLength?) (← q.minLength?)
  | .times p least _ _ => do return (← p.minLength?) * least
  | .group _ p => p.minLength?

/-! ## One character -/

/-- The pattern of one character out of a set. -/
def ofSet (s : CharSet) : Pattern :=
  match s.single? with
  | some c => .text [c]
  | none => .one s

/-- The character that the pattern fits and nothing else. -/
def char? : Pattern → Option Char
  | .text [c] => some c
  | _ => none

/-- The set of the characters that the pattern fits, if it was made from a set. -/
def set? : Pattern → Option CharSet
  | .one s => some s
  | _ => none

/-! ## Sequences -/

/-- The parts of a sequence; any other pattern is its only part. -/
def parts : Pattern → List Pattern
  | .empty => []
  | .seq p q => p.parts ++ q.parts
  | p => [p]

/-- Join neighbouring texts. -/
def joinTexts : List Pattern → List Pattern
  | [] => []
  | .text chars :: rest =>
      match joinTexts rest with
      | .text more :: rest => .text (chars ++ more) :: rest
      | rest => .text chars :: rest
  | p :: rest => p :: joinTexts rest

/-- Patterns one after the other, as they are. -/
def ofParts : List Pattern → Pattern
  | [] => .empty
  | [p] => p
  | p :: rest => .seq p (ofParts rest)

/-- **Patterns one after the other.** -/
def sequence (patterns : List Pattern) : Pattern := ofParts (joinTexts (patterns.flatMap parts))

/-! ## Alternatives -/

/-- The alternatives of a choice; any other pattern is its only one. -/
def alternatives : Pattern → List Pattern
  | .alt p q => p.alternatives ++ q.alternatives
  | p => [p]

/-- Patterns to choose from, as they are. -/
def ofAlternatives : List Pattern → Pattern
  | [] => .one .none
  | [p] => p
  | p :: rest => .alt p (ofAlternatives rest)

/-- The set of all the characters, if every pattern is a single one. -/
def chars? (patterns : List Pattern) : Option CharSet :=
  (patterns.mapM char?).map fun chars => chars.foldl (fun s c => s.union (.single c)) .none

/-- The union of all the sets, if every pattern is one. -/
def sets? (patterns : List Pattern) : Option CharSet :=
  (patterns.mapM set?).map fun sets => sets.foldl .union .none

/-- Patterns to choose from, as a set if they are single characters. -/
def choiceOrSet (patterns : List Pattern) : Pattern :=
  match patterns.flatMap alternatives with
  | [p] => p
  | flat =>
      match chars? flat <|> sets? flat with
      | some s => ofSet s
      | none => ofAlternatives flat

/-- What two lists begin with alike. -/
def commonStart : List Pattern → List Pattern → List Pattern
  | p :: ps, q :: qs => if p = q then p :: commonStart ps qs else []
  | _, _ => []

/-- The parts with which all patterns begin, if there are several patterns and each is
a sequence. -/
def sharedParts : List Pattern → List Pattern
  | first :: second :: rest =>
      if (first :: second :: rest).all fun p => 1 < p.parts.length then
        (second :: rest).foldl (fun shared p => commonStart shared p.parts) first.parts
      else []
  | _ => []

/-- **Patterns to choose from.** -/
def choice (patterns : List Pattern) : Pattern :=
  let flat := patterns.flatMap alternatives
  let shared := sharedParts flat
  if shared.isEmpty then choiceOrSet flat
  else
    sequence (shared ++ [choiceOrSet (flat.map fun p => sequence (p.parts.drop shared.length))])

/-! ## Repetitions -/

/-- **A pattern several times.** -/
def repeated (p : Pattern) (least : Nat) (most : Option Nat) (greedy : Bool) : Pattern :=
  let (least, most) :=
    if p.isZeroWidth then (min least 1, some (min (most.getD 1) 1)) else (least, most)
  match least, most with
  | 0, some 0 => .empty
  | 1, some 1 => p
  | least, most => .times p least most greedy

example : sequence [.text ['a'], .seq (.text ['b']) (.anchor .textEnd)] =
    .seq (.text ['a', 'b']) (.anchor .textEnd) := by decide
example : choice [.text ['b'], .alt (.text ['a']) (.text ['c'])] = .one (.range 'a' 'c') := by
  decide
example : repeated (.anchor .textStart) 5 none true = .anchor .textStart := by decide

end Pattern
end Placement
