import Placement.Json.Reader
import Placement.Pattern.Size
import Placement.Text.Alphabetic
import Placement.Text.Numeric
/-! # Reading patterns

A pattern is written with literals, `.`, classes in brackets, groups in
parentheses, `|`, repetitions `* + ? {n} {n,} {n,m}` and their lazy forms,
anchors and escapes.  Flags in parentheses hold up to the end of the group:
letters up to case (`i`), lines (`m`, and `R` for line ends of two characters),
`.` for every character (`s`), repetitions that are lazy without a sign and not
lazy with it (`U`), blanks and comments between the parts (`x`).

Looking around, references back to groups, and properties of characters by name
are not part of the notation.  Patterns that are nested too deep (`maxDepth`) or
need too large a machine (`Pattern.isModest`) are refused.
-/
namespace Placement
namespace Pattern

/-- The flags in force. -/
structure Flags where
  foldCase : Bool
  lines : Bool
  crlf : Bool
  dotAll : Bool
  spaced : Bool
  lazy : Bool
  deriving DecidableEq

/-- What is left of a pattern, the flags in force, the names of groups so far and how
many groups were opened. -/
structure Reading where
  rest : List Char
  flags : Flags
  names : List (List Char)
  groups : Nat

/-! ## Depth -/

/-- Something that was read, and how deep it nests: what is written in one piece has depth
zero; brackets, parentheses, repetitions, and everything that has several parts are one
deeper than what is in them. -/
structure Nested (α : Type) where
  val : α
  depth : Nat

/-- The deepest nesting that is allowed. -/
def maxDepth : Nat := 250

namespace Nested
variable {α β : Type}

/-- One level around. -/
def deeper (x : Nested α) (val : β) : Nested β := ⟨val, x.depth + 1⟩

/-- Several parts as one.  One part alone is no deeper for it. -/
def joined (parts : List (Nested α)) (join : List α → β) : Nested β :=
  ⟨join (parts.map val),
    match parts with
    | [part] => part.depth
    | parts => if parts.isEmpty then 0 else parts.foldl (fun n part => max n part.depth) 0 + 1⟩

end Nested

/-! ## Blanks and comments -/

/-- Drop a comment, up to its line feed. -/
def skipComment (rest : List Char) : List Char :=
  (rest.dropWhile (· ≠ '\n')).drop 1

/-- Drop blanks and comments, at most `fuel` of them. -/
def skipSpace : Nat → List Char → List Char
  | 0, rest => rest
  | fuel + 1, rest =>
      match rest with
      | c :: more =>
          if Blank.contains c then skipSpace fuel more
          else if c = '#' then skipSpace fuel (skipComment more)
          else rest
      | [] => []

/-- Drop blanks and comments, if the flags in force allow them between parts. -/
def Reading.skip (r : Reading) : Reading :=
  if r.flags.spaced then { r with rest := skipSpace r.rest.length r.rest } else r

/-- Past the first character. -/
def Reading.bump (r : Reading) : Reading := { r with rest := r.rest.drop 1 }

/-- Past the first character and the blanks after it. -/
def Reading.bumpSkip (r : Reading) : Reading := r.bump.skip

/-- The characters that satisfy a test, each with the blanks after it; `fuel` bounds their
number. -/
def spanWith (test : Char → Bool) : Nat → Reading → List Char → List Char × Reading
  | 0, r, chars => (chars.reverse, r)
  | fuel + 1, r, chars =>
      match r.rest with
      | c :: _ =>
          if test c then spanWith test fuel r.bumpSkip (c :: chars) else (chars.reverse, r)
      | [] => (chars.reverse, r)

/-- The characters that satisfy a test, and what follows them. -/
def Reading.span (r : Reading) (test : Char → Bool) : List Char × Reading :=
  spanWith test r.rest.length r []

/-- The character after the first one, past blanks if the flags allow them.  Of a comment
only the sign is passed, and the blanks after it. -/
def Reading.peek? (r : Reading) : Option Char :=
  let rest := r.rest.drop 1
  if r.flags.spaced then
    match rest.dropWhile Blank.contains with
    | '#' :: comment => (comment.dropWhile Blank.contains).head?
    | rest => rest.head?
  else rest.head?

/-! ## Escapes -/

/-- Characters with a meaning of their own. -/
def isMeta (c : Char) : Bool :=
  "\\.+*?()|[]\x7b\x7d^$#&-~".toList.contains c

/-- What an escape, or a character by itself, stands for. -/
inductive Unit
  | char (c : Char)
  | set (s : CharSet)
  | anchor (a : Anchor)

/-- The character of a number in hexadecimal. -/
def charOf? (digits : List Nat) : Option Char :=
  let code := digits.foldl (fun n d => n * 16 + d) 0
  if code < 0xD800 ∨ (0xE000 ≤ code ∧ code < 0x110000) then some (Char.ofNat code) else none

/-- So many hexadecimal digits. -/
def hexDigits? : Nat → Reading → List Nat → Option (List Nat × Reading)
  | 0, r, digits => some (digits.reverse, r)
  | count + 1, r, digits =>
      match r.rest with
      | c :: _ => do
          let d ← Json.Reader.hexValue? c
          hexDigits? count r.bumpSkip (d :: digits)
      | [] => none

/-- Hexadecimal digits up to a closing brace. -/
def hexBraces? (r : Reading) : Option (List Nat × Reading) :=
  let (chars, r) := r.span fun c => (Json.Reader.hexValue? c).isSome
  match r.rest with
  | '\x7d' :: _ =>
      if chars.isEmpty then none else some (chars.filterMap Json.Reader.hexValue?, r.bumpSkip)
  | _ => none

/-- A character by its number, after `\x`, `\u` or `\U`. -/
def hexEscape? (count : Nat) (r : Reading) : Option (Unit × Reading) := do
  let r := r.skip
  let (digits, r) ← match r.rest with
    | '\x7b' :: _ => hexBraces? r.bumpSkip
    | _ => hexDigits? count r []
  let c ← charOf? digits
  some (.char c, r)

/-- The special forms of word boundaries, by the name between braces. -/
def specialBoundary? (name : List Char) : Option Anchor :=
  match String.ofList name with
  | "start" => some .wordStart
  | "end" => some .wordEnd
  | "start-half" => some .wordStartHalf
  | "end-half" => some .wordEndHalf
  | _ => none

/-- A boundary of words, after `\b`.  Letters and minus signs in braces name a
special form; braces with anything else are left for a repetition. -/
def boundary? (r : Reading) : Option (Unit × Reading) :=
  match r.rest with
  | '\x7b' :: _ =>
      let inner := r.bumpSkip
      let (name, after) := inner.span fun c => c.isAlpha || c = '-'
      if inner.rest.isEmpty then none
      else if name.isEmpty then some (.anchor .wordBoundary, r)
      else
        match after.rest with
        | '\x7d' :: _ => (specialBoundary? name).map fun a => (.anchor a, after.bump)
        | _ => none
  | _ => some (.anchor .wordBoundary, r)

/-- What an escape stands for, after the backslash. -/
def escape? (r : Reading) : Option (Unit × Reading) :=
  match r.rest with
  | [] => none
  | c :: _ =>
      let after := r.bump
      match c with
      | 'x' => hexEscape? 2 after
      | 'u' => hexEscape? 4 after
      | 'U' => hexEscape? 8 after
      | 'd' => some (.set .digit, after)
      | 'D' => some (.set (.complement .digit), after)
      | 's' => some (.set .blank, after)
      | 'S' => some (.set (.complement .blank), after)
      | 'w' => some (.set .word, after)
      | 'W' => some (.set (.complement .word), after)
      | 'a' => some (.char '\x07', after)
      | 'f' => some (.char '\x0c', after)
      | 't' => some (.char '\t', after)
      | 'n' => some (.char '\n', after)
      | 'r' => some (.char '\r', after)
      | 'v' => some (.char '\x0b', after)
      | 'A' => some (.anchor .textStart, after)
      | 'z' => some (.anchor .textEnd, after)
      | 'b' => boundary? after
      | 'B' => some (.anchor .noWordBoundary, after)
      | '<' => some (.anchor .wordStart, after)
      | '>' => some (.anchor .wordEnd, after)
      | c =>
          if isMeta c || (c.toNat < 0x80 && !c.isAlphanum) then some (.char c, after) else none

/-! ## Classes -/

/-- Fold a set up to case, if the flags ask for it. -/
def Flags.fold (flags : Flags) (s : CharSet) : CharSet :=
  if flags.foldCase then s.folded else s

/-- The combinations of sets that are written by doubled signs. -/
inductive SetOp
  | inter | diff | symmDiff

/-- Combine two sets. -/
def SetOp.apply (flags : Flags) (op : SetOp) (s t : CharSet) : CharSet :=
  let s := flags.fold s
  let t := flags.fold t
  match op with
  | .inter => .inter s t
  | .diff => .diff s t
  | .symmDiff => .symmDiff s t

/-- A class by name, `[:name:]` or `[:^name:]`, inside a class; nothing if the text
does not have that form. -/
def namedSet? (r : Reading) : Option (CharSet × Reading) :=
  match r.rest with
  | '[' :: ':' :: rest =>
      let (negated, rest) := match rest with
        | '^' :: rest => (true, rest)
        | rest => (false, rest)
      let name := rest.takeWhile (· ≠ ':')
      match rest.dropWhile (· ≠ ':') with
      | ':' :: ']' :: after =>
          (CharSet.ofName? (String.ofList name)).map fun s =>
            let s := r.flags.fold s
            (if negated then .complement s else s, { r with rest := after })
      | _ => none
  | _ => none

/-- One character or escape inside a class. -/
def classUnit? (r : Reading) : Option (Unit × Reading) :=
  match r.rest with
  | '\\' :: _ => escape? r.bump
  | c :: _ => some (.char c, r.bump)
  | [] => none

/-- The set of a unit inside a class; an anchor has none. -/
def Unit.set? : Unit → Option CharSet
  | .char c => some (.single c)
  | .set s => some s
  | .anchor _ => none

/-- One character, escape or range inside a class. -/
def classRange? (r : Reading) : Option (CharSet × Reading) := do
  let (first, r) ← classUnit? r
  let r := r.skip
  match r.rest with
  | [] => none
  | c :: _ =>
      let following := r.peek?
      if c ≠ '-' || following == some ']' || following == some '-' then
        (first.set?).map (·, r)
      else
        let r := r.bumpSkip
        let (last, r) ← classUnit? r
        match first, last with
        | .char a, .char b => if a ≤ b then some (.range a b, r) else none
        | _, _ => none

/-- A class whose closing bracket is still to come: whether it is negated, what stood
before the last combination sign and that sign, and the items since, listed backwards. -/
structure OpenClass where
  negated : Bool
  pending : Option (Nested CharSet × SetOp)
  items : List (Nested CharSet)

/-- One more item in an open class. -/
def OpenClass.add (c : OpenClass) (item : Nested CharSet) : OpenClass :=
  { c with items := item :: c.items }

/-- Everything in an open class up to now. -/
def OpenClass.all (flags : Flags) (c : OpenClass) : Nested CharSet :=
  let union := Nested.joined c.items fun sets => sets.foldr (fun s all => all.union s) .none
  match c.pending with
  | none => union
  | some (s, op) => ⟨op.apply flags s.val union.val, max s.depth union.depth + 1⟩

/-- The set of a class that is complete. -/
def OpenClass.close (flags : Flags) (c : OpenClass) : Nested CharSet :=
  let all := c.all flags
  let s := flags.fold all.val
  all.deeper (if c.negated then s.complement else s)

/-- Leading minus signs of a class; `fuel` bounds their number. -/
def leadingMinus : Nat → Reading → OpenClass → OpenClass × Reading
  | 0, r, c => (c, r)
  | fuel + 1, r, c =>
      match r.rest with
      | '-' :: _ => leadingMinus fuel r.bumpSkip (c.add ⟨.single '-', 0⟩)
      | _ => (c, r)

/-- The opening bracket of a class with what belongs to it: a `^`, leading minus
signs, and a `]` that comes first. -/
def openClass? (r : Reading) : Option (OpenClass × Reading) :=
  let r := r.bumpSkip
  let (negated, r) := match r.rest with
    | '^' :: _ => (true, r.bumpSkip)
    | _ => (false, r)
  let (c, r) := leadingMinus r.rest.length r ⟨negated, none, []⟩
  match r.rest with
  | [] => none
  | ']' :: _ =>
      if c.items.isEmpty then
        let after := r.bumpSkip
        if after.rest.isEmpty then none else some (c.add ⟨.single ']', 0⟩, after)
      else some (c, r)
  | _ => some (c, r)

/-- The rest of a class, the innermost open one first; `fuel` bounds the number of
parts. -/
def class? : Nat → OpenClass → List OpenClass → Reading → Option (Nested CharSet × Reading)
  | 0, _, _, _ => none
  | fuel + 1, here, outer, r =>
      let r := r.skip
      let combine := fun (op : SetOp) =>
        class? fuel ⟨here.negated, some (here.all r.flags, op), []⟩ outer r.bump.bump
      match r.rest with
      | [] => none
      | '[' :: _ =>
          match namedSet? r with
          | some (s, r) => class? fuel (here.add ⟨s, 0⟩) outer r
          | none =>
              match openClass? r with
              | some (inner, r) => class? fuel inner (here :: outer) r
              | none => none
      | ']' :: _ =>
          let s := here.close r.flags
          match outer with
          | [] => some (s, r.bump)
          | next :: outer => class? fuel (next.add s) outer r.bump
      | '&' :: '&' :: _ => combine .inter
      | '-' :: '-' :: _ => combine .diff
      | '~' :: '~' :: _ => combine .symmDiff
      | _ =>
          match classRange? r with
          | some (s, r) => class? fuel (here.add ⟨s, 0⟩) outer r
          | none => none

/-! ## Groups and flags -/

/-- The flags behind `(?`, up to a colon or a closing parenthesis: each at most once,
one minus sign at most and not as the last; and whether there was any. -/
def flags? : List Char → List Char → Flags → Bool → Option (Flags × List Char × Bool)
  | [], _, _, _ => none
  | c :: rest, seen, flags, on =>
      if c = ':' ∨ c = ')' then
        if seen.head? = some '-' then none else some (flags, c :: rest, !seen.isEmpty)
      else if seen.contains c then none
      else
        match c with
        | '-' => flags? rest (c :: seen) flags false
        | 'i' => flags? rest (c :: seen) { flags with foldCase := on } on
        | 'm' => flags? rest (c :: seen) { flags with lines := on } on
        | 's' => flags? rest (c :: seen) { flags with dotAll := on } on
        | 'R' => flags? rest (c :: seen) { flags with crlf := on } on
        | 'x' => flags? rest (c :: seen) { flags with spaced := on } on
        | 'U' => flags? rest (c :: seen) { flags with lazy := on } on
        | 'u' => if on then flags? rest (c :: seen) flags on else none
        | _ => none

/-- The name of a group, up to the closing angle bracket. -/
def groupName? (r : Reading) : Option Reading :=
  let name := r.rest.takeWhile (· ≠ '>')
  match r.rest.dropWhile (· ≠ '>') with
  | '>' :: rest =>
      let starts := fun (c : Char) => c = '_' || Alphabetic.contains c
      let continues := fun (c : Char) =>
        starts c || c = '.' || c = '[' || c = ']' || Numeric.contains c
      match name with
      | [] => none
      | c :: more =>
          if starts c && more.all continues && !r.names.contains name then
            some { r with rest := rest, names := name :: r.names }
          else none
  | _ => none

/-- What the opening parenthesis of a group begins. -/
inductive Opening
  /-- A group with a number, read with the flags in force. -/
  | numbered (index : Nat)
  /-- A group without a number, read with these flags. -/
  | plain (flags : Flags)
  /-- A change of flags for the rest of the group around it. -/
  | change (flags : Flags)

/-- A group gets the next number. -/
def Reading.number (r : Reading) : Opening × Reading :=
  (.numbered (r.groups + 1), { r with groups := r.groups + 1 })

/-- The opening parenthesis of a group with what belongs to it. -/
def opening? (r : Reading) : Option (Opening × Reading) :=
  let r := r.bumpSkip
  match r.rest with
  | '?' :: '=' :: _ | '?' :: '!' :: _ | '?' :: '<' :: '=' :: _ | '?' :: '<' :: '!' :: _ => none
  | '?' :: 'P' :: '<' :: rest => (groupName? { r with rest := rest }).map Reading.number
  | '?' :: '<' :: rest => (groupName? { r with rest := rest }).map Reading.number
  | '?' :: rest =>
      match flags? rest [] r.flags true with
      | some (flags, ':' :: rest, _) => some (.plain flags, { r with rest := rest })
      | some (flags, ')' :: rest, some?) =>
          if some? then some (.change flags, { r with rest := rest }) else none
      | _ => none
  | _ => some r.number

/-! ## Repetitions -/

/-- A decimal number between blanks.  The flags may allow blanks between its digits. -/
def decimal? (r : Reading) : Option (Nat × Reading) :=
  let r := { r with rest := r.rest.dropWhile Blank.contains }
  let (digits, r) := r.span Char.isDigit
  if digits.isEmpty then none
  else
    let n := Numeral.ofDigits digits
    if n < 0x100000000 then some (n, { r with rest := r.rest.dropWhile Blank.contains })
    else none

/-- A repetition in braces, after the opening one: the bounds. -/
def bounds? (r : Reading) : Option ((Nat × Option Nat) × Reading) := do
  let r := r.skip
  let (least, r) ← decimal? r
  match r.rest with
  | ',' :: _ =>
      let r := r.bumpSkip
      match r.rest with
      | '\x7d' :: _ => some ((least, none), r.bumpSkip)
      | _ => do
          let (most, r) ← decimal? r
          match r.rest with
          | '\x7d' :: _ => if least ≤ most then some ((least, some most), r.bumpSkip) else none
          | _ => none
  | '\x7d' :: _ => some ((least, some least), r.bumpSkip)
  | _ => none

/-- A part of a sequence: a pattern, or a change of flags, which cannot be repeated. -/
inductive Part
  | pattern (p : Pattern)
  | flags

/-- The pattern of a part. -/
def Part.toPattern : Part → Pattern
  | .pattern p => p
  | .flags => .empty

/-- Repeat the last part of a sequence, which is listed backwards.  A question mark
behind the sign of the repetition tells which lengths come first. -/
def repeatLast? (parts : List (Nested Part)) (least : Nat) (most : Option Nat) (r : Reading) :
    Option (List (Nested Part) × Reading) :=
  match parts with
  | ⟨.pattern p, depth⟩ :: rest =>
      let (marked, r) := match r.rest with
        | '?' :: _ => (true, r.bump)
        | _ => (false, r)
      some (⟨.pattern (p.repeated least most (marked == r.flags.lazy)), depth + 1⟩ :: rest, r)
  | _ => none

/-- The pattern of a sequence that is listed backwards. -/
def ofReversed (parts : List (Nested Part)) : Nested Pattern :=
  Nested.joined parts fun parts => sequence (parts.reverse.map Part.toPattern)

/-- The pattern of a character or an escape. -/
def Unit.pattern (flags : Flags) : Unit → Pattern
  | .char c => ofSet (flags.fold (.single c))
  | .set s => ofSet s
  | .anchor a => .anchor a

/-- The pattern of a character that stands for itself or has a meaning alone. -/
def plain (flags : Flags) (c : Char) : Pattern :=
  match c with
  | '.' =>
      if flags.dotAll then .one .any
      else if flags.crlf then .one (CharSet.union (.single '\r') (.single '\n')).complement
      else .one (CharSet.single '\n').complement
  | '^' =>
      if flags.lines then .anchor (if flags.crlf then .lineStartCrlf else .lineStart)
      else .anchor .textStart
  | '$' =>
      if flags.lines then .anchor (if flags.crlf then .lineEndCrlf else .lineEnd)
      else .anchor .textEnd
  | c => (Unit.char c).pattern flags

mutual

/-- The alternatives up to a closing parenthesis or the end, the first one listed first.
`fuel` bounds the number of parts. -/
def branches? : Nat → Reading → Option (List (Nested Pattern) × Reading)
  | 0, _ => none
  | fuel + 1, r => do
      let (p, r) ← parts? fuel [] r
      match r.rest with
      | '|' :: _ => do
          let (rest, r) ← branches? fuel r.bump
          some (p :: rest, r)
      | _ => some ([p], r)

/-- The parts of one alternative, those before listed backwards. -/
def parts? : Nat → List (Nested Part) → Reading → Option (Nested Pattern × Reading)
  | 0, _, _ => none
  | fuel + 1, before, r =>
      let r := r.skip
      match r.rest with
      | [] => some (ofReversed before, r)
      | c :: _ =>
          match c with
          | '|' => some (ofReversed before, r)
          | ')' => some (ofReversed before, r)
          | '(' => do
              let (opening, inner) ← opening? r
              match opening with
              | .change flags =>
                  parts? fuel (⟨.flags, 0⟩ :: before) { inner with flags := flags }
              | .numbered index => do
                  let (choices, inner) ← branches? fuel inner
                  let p := Nested.joined choices choice
                  match inner.rest with
                  | ')' :: _ =>
                      parts? fuel (p.deeper (.pattern (.group index p.val)) :: before)
                        { inner.bump with flags := r.flags }
                  | _ => none
              | .plain flags => do
                  let (choices, inner) ← branches? fuel { inner with flags := flags }
                  let p := Nested.joined choices choice
                  match inner.rest with
                  | ')' :: _ =>
                      parts? fuel (p.deeper (.pattern p.val) :: before)
                        { inner.bump with flags := r.flags }
                  | _ => none
          | '[' => do
              let (first, inner) ← openClass? r
              let (s, r) ← class? (2 * inner.rest.length + 2) first [] inner
              parts? fuel (⟨.pattern (ofSet s.val), s.depth⟩ :: before) r
          | '?' => do
              let (before, r) ← repeatLast? before 0 (some 1) r.bump
              parts? fuel before r
          | '*' => do
              let (before, r) ← repeatLast? before 0 none r.bump
              parts? fuel before r
          | '+' => do
              let (before, r) ← repeatLast? before 1 none r.bump
              parts? fuel before r
          | '\x7b' => do
              let ((least, most), r) ← bounds? r.bump
              let (before, r) ← repeatLast? before least most r
              parts? fuel before r
          | '\\' => do
              let (u, r) ← escape? r.bump
              parts? fuel (⟨.pattern (u.pattern r.flags), 0⟩ :: before) r
          | c => parts? fuel (⟨.pattern (plain r.flags c), 0⟩ :: before) r.bump

end

/-- **The pattern that a text spells**; nothing if it spells none. -/
def parse? (text : String) : Option Pattern :=
  let chars := text.toList
  let flags : Flags := ⟨false, false, false, false, false, false⟩
  match branches? (2 * chars.length + 2) ⟨chars, flags, [], 0⟩ with
  | some (choices, r) =>
      let p := Nested.joined choices choice
      if r.rest.isEmpty && decide (p.depth ≤ maxDepth) && p.val.isModest then some p.val else none
  | none => none

end Pattern
end Placement
