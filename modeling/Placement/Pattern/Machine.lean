import Placement.Pattern.Encoding
import Placement.Pattern.Recent
/-! # Machines that read texts byte by byte

Of a machine only its size is of interest: a state takes 32 bytes, each range in a list of
ranges of bytes on which a state goes on takes 8, and each state to which one can go on
without reading takes 4.  States are numbered in the order in which they are made.

A machine for a set of characters makes the states that go on alike only once, as long as
the first of them is remembered.  There are ten thousand places to remember states for a
machine that reads forward and one thousand for one that reads backward, and the place is
computed from the numbers of the states to which it goes on.  So **the size that a set
needs depends on how many states were made before it**.
-/
namespace Placement

/-- Which way a machine reads a text. -/
inductive Direction
  | forward | backward
  deriving DecidableEq

/-- How much of a machine has been made. -/
structure Machine where
  states : Nat
  bytes : Nat
  deriving Repr, DecidableEq

namespace Machine

/-- No state has been made yet. -/
def empty : Machine := ⟨0, 0⟩

/-- Make more states; what they take beyond the 32 bytes of each is `extra`. -/
def grow (m : Machine) (states extra : Nat) : Machine :=
  ⟨m.states + states, m.bytes + 32 * states + extra⟩

/-- The largest machine that is allowed: ten megabytes. -/
def maxBytes : Nat := 10 * 0x100000

/-- The machine, unless it is too large. -/
def within? (m : Machine) : Option Machine := if m.bytes ≤ maxBytes then some m else none

/-- Make more states, unless the machine gets too large. -/
def add? (m : Machine) (states extra : Nat) : Option Machine := (m.grow states extra).within?

/-! ## Repetitions -/

/-- Add the same part so many times. -/
def again (part : Machine → Option Machine) : Nat → Machine → Option Machine
  | 0, m => some m
  | count + 1, m =>
      match part m with
      | some m => again part count m
      | none => none

/-- Add a part at least `least` times and at most `most` times if that is given.  If it
can go on without an end, a state leads back into the part; a part that may be empty
needs two more states to be left out.  Each part that may be left out has a state before
it, from which one can go to the end. -/
def repeated (part : Machine → Option Machine) (mayBeEmpty : Bool) (least : Nat) :
    Option Nat → Machine → Option Machine
  | none, m =>
      if least ≠ 0 then (again part least m).bind (·.add? 1 8)
      else if mayBeEmpty then (part m).bind (·.add? 3 16)
      else part (m.grow 1 8)
  | some most, m =>
      if least = most then again part least m
      else if least = 0 ∧ most = 1 then (part (m.grow 1 8)).bind (·.add? 1 0)
      else
        let start := if least = 0 then some (m.grow 1 0) else again part least m
        start.bind fun m => again (fun m => part (m.grow 1 8)) (most - least) (m.grow 1 0)

/-! ## Sets of characters -/

/-- A machine with the states that are remembered. -/
structure Making where
  machine : Machine
  recent : Recent

namespace Making

/-- The state that goes on as the key says: one that is remembered, or else a new one. -/
def state (s : Making) (key : List Nat) (extra : Nat) : Nat × Making :=
  match s.recent.find? key with
  | some number => (number, s)
  | none =>
      let number := s.machine.states
      (number, ⟨s.machine.grow 1 extra, s.recent.keep key number⟩)

/-- The state that reads one of the runs and goes on to the state `last`.  What follows a
byte is made before the state that reads the byte; `depth` bounds the number of bytes. -/
def forward (last : Nat) : Nat → List ByteRun → Making → Nat × Making
  | 0, _, s => (last, s)
  | depth + 1, runs, s =>
      let groups := ByteRun.byFirst runs
      let (key, s) := groups.foldl
        (fun (key, s) ((first, most), rests) =>
          let (next, s) := if rests = [[]] then (last, s) else forward last depth rests s
          (next :: most :: first :: key, s))
        ([], s)
      s.state key.reverse (8 * groups.length)

/-- The state that reads the run from its last byte to its first and goes on to `last`. -/
def backward (s : Making) (last : Nat) (run : ByteRun) : Nat × Making :=
  run.foldl (fun (next, s) (first, most) => s.state [next, first, most] 0) (last, s)

end Making

/-- Add the part that reads one character of the set. -/
def readOne (direction : Direction) (set : CharSet) (m : Machine) : Machine :=
  if set.ranges.all fun range => range.2 < 0x80 then m.grow 2 (8 * set.ranges.length)
  else
    let runs := set.byteRuns
    match direction with
    | .forward => (Making.forward m.states 4 runs ⟨m.grow 1 0, .empty 10000⟩).2.machine
    | .backward =>
        let start : Making := ⟨m.grow 2 (4 * runs.length), .empty 1000⟩
        (runs.foldl (fun s run => (s.backward (m.states + 1) run).2) start).machine

example : empty.readOne .forward (.range 'a' 'z') = ⟨2, 72⟩ := by decide
example : (Making.forward 0 4 (CharSet.range 'а' 'я').byteRuns ⟨⟨1, 32⟩, .empty 20⟩).2.machine =
    ⟨4, 160⟩ := by
  decide +kernel

end Machine
end Placement
