import Placement.Pattern.CharSet
/-! # Patterns

A pattern describes texts.  The only question asked about one is whether **some
part of a text** fits it, so it does not matter which part is found or how often
a repetition is tried.

The answer is found without searching back: the set of places that can be
reached in the text is one number whose bits are the places, a set of characters
moves all places over such a character at once, and a repetition is followed
until no new place is reached.  A text of `n` characters has `n + 1` places, so
that takes at most `n + 1` rounds.
-/
namespace Placement

/-- A condition on a place in the text. -/
inductive Anchor
  | textStart | textEnd
  | lineStart | lineEnd
  /-- As the line anchors, but a carriage return with a line feed is one line end. -/
  | lineStartCrlf | lineEndCrlf
  | wordBoundary | noWordBoundary
  | wordStart | wordEnd
  /-- What stands before is no word character. -/
  | wordStartHalf
  /-- What comes next is no word character. -/
  | wordEndHalf
  deriving Repr, DecidableEq

/-- A pattern.  Groups are numbered in the order in which they open, so no two groups of
a pattern are equal.  Neither the numbers nor which of a repetition's lengths is
preferred makes a difference to whether a text fits. -/
inductive Pattern
  /-- The empty text. -/
  | empty
  /-- One text. -/
  | text (chars : List Char)
  | one (s : CharSet)
  | anchor (a : Anchor)
  | seq (p q : Pattern)
  | alt (p q : Pattern)
  /-- At least `least` times, and at most `most` times if that is given; the longest
  first if it is `greedy`. -/
  | times (p : Pattern) (least : Nat) (most : Option Nat) (greedy : Bool)
  /-- A pattern in parentheses. -/
  | group (index : Nat) (p : Pattern)
  deriving Repr, DecidableEq

namespace Anchor

/-- Whether the condition holds between the characters `before` and `after`. -/
def holds (a : Anchor) (before after : Option Char) : Bool :=
  let word : Option Char → Bool := fun c => c.any Word.contains
  match a with
  | .textStart => before.isNone
  | .textEnd => after.isNone
  | .lineStart => before.isNone || before == some '\n'
  | .lineEnd => after.isNone || after == some '\n'
  | .lineStartCrlf =>
      before.isNone || before == some '\n' || (before == some '\r' && after != some '\n')
  | .lineEndCrlf =>
      after.isNone || after == some '\r' || (after == some '\n' && before != some '\r')
  | .wordBoundary => word before != word after
  | .noWordBoundary => word before == word after
  | .wordStart => !word before && word after
  | .wordEnd => word before && !word after
  | .wordStartHalf => !word before
  | .wordEndHalf => !word after

end Anchor

/-- A set of places in a text: place `i`, before the character number `i`, is in it
when bit `i` is set. -/
abbrev Places := Nat

namespace Pattern

/-- A pattern with its sets of characters and its anchors looked up in one text. -/
inductive Motion
  | stay
  /-- Only from these places, over one character. -/
  | step (places : Places)
  /-- Only at these places. -/
  | hold (places : Places)
  | seq (m n : Motion)
  | alt (m n : Motion)
  | times (m : Motion) (least : Nat) (most : Option Nat)

/-- The set of the places that satisfy a test, listed from place `0` on. -/
def places : List Bool → Places
  | [] => 0
  | here :: rest => (if here then 1 else 0) + 2 * places rest

/-- The places of a text, each as the characters before and after it. -/
def contexts (before : Option Char) : List Char → List (Option Char × Option Char)
  | [] => [(before, none)]
  | c :: rest => (before, some c) :: contexts (some c) rest

/-- Look a pattern up in a text. -/
def locate (text : List Char) : Pattern → Motion
  | .empty => .stay
  | .text chars => chars.foldr (fun c m => .seq (.step (places (text.map (· == c)))) m) .stay
  | .one s => .step (places (text.map s.contains))
  | .anchor a =>
      .hold (places ((contexts none text).map fun (before, after) => a.holds before after))
  | .seq p q => .seq (p.locate text) (q.locate text)
  | .alt p q => .alt (p.locate text) (q.locate text)
  | .times p least most _ => .times (p.locate text) least most
  | .group _ p => p.locate text

/-- Apply `f` so many times. -/
def iterate {α : Type} (f : α → α) : Nat → α → α
  | 0, x => x
  | n + 1, x => iterate f n (f x)

/-- Add what `f` reaches from the new places, until there are none; at most so many
rounds. -/
def closure (f : Places → Places) : Nat → Places → Places → Places
  | 0, _, reached => reached
  | rounds + 1, fresh, reached =>
      let next := f fresh
      let seen := reached ||| next
      if seen = reached then reached else closure f rounds (seen ^^^ reached) seen

/-- The places where a motion can end in a text of `length` characters, if it starts
in one of the given ones. -/
def Motion.ends (length : Nat) : Motion → Places → Places
  | .stay, s => s
  | .step places, s => (s &&& places) <<< 1
  | .hold places, s => s &&& places
  | .seq m n, s => n.ends length (m.ends length s)
  | .alt m n, s => m.ends length s ||| n.ends length s
  | .times m least most, s =>
      let start := iterate (m.ends length) least s
      match most with
      | none => closure (m.ends length) (length + 1) start start
      | some most => closure (m.ends length) (most - least) start start

/-! ## Matching -/

/-- **Whether some part of the text fits the pattern.** -/
def matchesIn (p : Pattern) (text : String) : Bool :=
  let chars := text.toList
  let length := chars.length
  (p.locate chars).ends length ((1 <<< (length + 1)) - 1) != 0

end Pattern
end Placement
