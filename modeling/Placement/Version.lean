import Placement.Decimal.Numeral
/-! # Version numbers

A version is three numbers, identifiers that mark it as a pre-release, and
identifiers that name the build: `1.10.0-beta.2+45`.  `Version.compare` is **a
total order on whole versions**: the three numbers first, then the pre-release
marks (a version without any is above all that have some), then the builds.
-/
namespace Placement

/-- A version number. -/
structure Version where
  major : Nat
  minor : Nat
  patch : Nat
  /-- Identifiers behind the first `-`; none for a release. -/
  prerelease : List (List Char)
  /-- Identifiers behind the `+`. -/
  build : List (List Char)
  deriving DecidableEq, Repr

namespace Version

/-! ## Reading -/

/-- Whether a text is written in digits only. -/
def isNumeric (identifier : List Char) : Bool := identifier.all Char.isDigit

/-- A number of a version: digits without a leading zero that 64 bits hold. -/
def number? (text : List Char) : Option (Nat × List Char) :=
  let (digits, rest) := Numeral.spanDigits text
  if digits.isEmpty || (digits.head? == some '0' && 1 < digits.length) then none
  else
    let n := Numeral.ofDigits digits
    if n < 0x10000000000000000 then some (n, rest) else none

/-- Characters of identifiers. -/
def isIdentifierChar (c : Char) : Bool := c.isAlphanum || c = '-'

/-- Split a text at its dots. -/
def splitDots : List Char → List (List Char)
  | [] => [[]]
  | c :: rest =>
      match splitDots rest with
      | [] => [[c]]
      | part :: parts => if c = '.' then [] :: part :: parts else (c :: part) :: parts

/-- The identifiers at the head of a text, one or more between dots, none of them
empty, and what follows them. -/
def identifiers? (text : List Char) : Option (List (List Char) × List Char) :=
  let inside := fun c => isIdentifierChar c || c = '.'
  let parts := splitDots (text.takeWhile inside)
  if parts.any List.isEmpty then none else some (parts, text.dropWhile inside)

/-- A number among the pre-release identifiers has no leading zero. -/
def allowedPrerelease (identifier : List Char) : Bool :=
  !(isNumeric identifier && identifier.head? == some '0' && 1 < identifier.length)

/-- The pre-release identifiers at the head of a text, if it begins with their sign. -/
def prerelease? : List Char → Option (List (List Char) × List Char)
  | '-' :: rest => do
      let (parts, rest) ← identifiers? rest
      if parts.all allowedPrerelease then some (parts, rest) else none
  | rest => some ([], rest)

/-- The identifiers of the build, which is all that is left of a text. -/
def build? : List Char → Option (List (List Char))
  | [] => some []
  | '+' :: rest => do
      let (parts, rest) ← identifiers? rest
      if rest.isEmpty then some parts else none
  | _ => none

/-- What follows the three numbers. -/
def marks? (text : List Char) : Option (List (List Char) × List (List Char)) := do
  let (prerelease, rest) ← prerelease? text
  let build ← build? rest
  some (prerelease, build)

/-- The version that a whole text spells. -/
def parse? (text : String) : Option Version := do
  let (major, rest) ← number? text.toList
  let rest ← dot? rest
  let (minor, rest) ← number? rest
  let rest ← dot? rest
  let (patch, rest) ← number? rest
  let (prerelease, build) ← marks? rest
  some { major, minor, patch, prerelease, build }
where
  dot? : List Char → Option (List Char)
    | '.' :: rest => some rest
    | _ => none

/-! ## Order -/

/-- The order of texts by their characters. -/
def compareText (a b : List Char) : Ordering := compareOfLessAndEq a b

/-- Compare list by list, place by place; a list is above its beginnings. -/
def compareLists {α : Type} (compareItems : α → α → Ordering) : List α → List α → Ordering
  | [], [] => .eq
  | [], _ :: _ => .lt
  | _ :: _, [] => .gt
  | a :: s, b :: t => (compareItems a b).then (compareLists compareItems s t)

/-- Numbers written without leading zeros, by their size; texts by their characters;
numbers below texts. -/
def comparePrereleaseIdentifier (a b : List Char) : Ordering :=
  match isNumeric a, isNumeric b with
  | true, true => (compare a.length b.length).then (compareText a b)
  | true, false => .lt
  | false, true => .gt
  | false, false => compareText a b

/-- Numbers by their size, and of two spellings of one number the longer above the
shorter; texts by their characters; numbers below texts. -/
def compareBuildIdentifier (a b : List Char) : Ordering :=
  match isNumeric a, isNumeric b with
  | true, true =>
      (compare (Numeral.ofDigits a) (Numeral.ofDigits b)).then (compare a.length b.length)
  | true, false => .lt
  | false, true => .gt
  | false, false => compareText a b

/-- A version without pre-release marks is above one that has some. -/
def comparePrerelease (a b : List (List Char)) : Ordering :=
  match a, b with
  | [], [] => .eq
  | [], _ :: _ => .gt
  | _ :: _, [] => .lt
  | a, b => compareLists comparePrereleaseIdentifier a b

/-- The order of whole versions. -/
def compareVersions (a b : Version) : Ordering :=
  (compare a.major b.major).then <|
  (compare a.minor b.minor).then <|
  (compare a.patch b.patch).then <|
  (comparePrerelease a.prerelease b.prerelease).then <|
  compareLists compareBuildIdentifier a.build b.build

instance : Ord Version := ⟨compareVersions⟩

end Version
end Placement
