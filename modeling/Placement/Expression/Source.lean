import Placement.Expression
import Placement.Expression.Fault
/-! # Reading expressions from source text

Operators from the loosest to the tightest:

| operator                           | groups |
|------------------------------------|--------|
| `? :`                              | right  |
| `\|\|`                             | left   |
| `&&`                               | left   |
| `< <= > >= == != in`               | left   |
| `+ -`                              | left   |
| `* / %`                            | left   |
| `! -` in front                     | right  |
| `.name` `.name(...)` `[index]`     | left   |

A reader walks a `Cursor`: the tokens still to come and the **nesting depth**.
Every nested expression, every further operand of a chain of operators, every
operator in front and every member step goes one level down, and no level below
`maxDepth` is entered.  Chains come back to the level they started from when they
end, nested parts when they are complete.

The readers carry a bound on the number of steps.  `stepsFor` gives enough for
any text, so the bound is never what ends a reading.
-/
namespace Placement

/-- What is left to read, and how deep the reading is nested. -/
structure Cursor where
  rest : List Lexeme
  depth : Nat
  deriving DecidableEq

namespace Cursor

/-- The next token. -/
def current? (c : Cursor) : Option Token := c.rest.head?.map Lexeme.token

/-- Past the next token. -/
def advance (c : Cursor) : Cursor := { c with rest := c.rest.tail }

/-- The next token with its position, and the cursor past it. -/
def next (c : Cursor) : Except Fault (Lexeme × Cursor) :=
  match c.rest with
  | [] => .error .unexpectedEnd
  | lexeme :: rest => .ok (lexeme, { c with rest := rest })

/-- Past the next token, if it is `wanted`. -/
def accept? (c : Cursor) (wanted : Token) : Option Cursor :=
  if c.current? = some wanted then some c.advance else none

/-- Past the next token, which has to be `wanted`. -/
def require (c : Cursor) (wanted : Token) : Except Fault Cursor := do
  let (lexeme, after) ← c.next
  if lexeme.token = wanted then .ok after
  else .error (.misplaced (.expected wanted lexeme.token) lexeme.start)

/-- One level down, unless that is too deep. -/
def deeper (c : Cursor) : Except Fault Cursor :=
  if maxDepth < c.depth + 1 then .error .tooDeep else .ok { c with depth := c.depth + 1 }

/-- One level up. -/
def higher (c : Cursor) : Cursor := { c with depth := c.depth - 1 }

/-- Back on the level `depth`. -/
def backTo (c : Cursor) (depth : Nat) : Cursor := { c with depth := depth }

/-- The name that has to come next. -/
def name (c : Cursor) : Except Fault (String × Cursor) := do
  let (lexeme, after) ← c.next
  match lexeme.token with
  | .identifier name => .ok (name, after)
  | found => .error (.misplaced (.expectedName found) lexeme.start)

end Cursor

/-- The levels of operators that stand between two operands, loosest first. -/
inductive Level
  | disjunction | conjunction | relation | sum | product
  deriving DecidableEq

namespace Level

/-- The next tighter level; nothing after the tightest. -/
def tighter? : Level → Option Level
  | .disjunction => some .conjunction
  | .conjunction => some .relation
  | .relation => some .sum
  | .sum => some .product
  | .product => none

/-- How an operator of the level joins its operands; nothing for other tokens. -/
def join? : Level → Token → Option (Expression → Expression → Expression)
  | .disjunction, .or => some .or
  | .conjunction, .and => some .and
  | .relation, .less => some (.relation .less)
  | .relation, .lessEqual => some (.relation .lessEqual)
  | .relation, .greater => some (.relation .greater)
  | .relation, .greaterEqual => some (.relation .greaterEqual)
  | .relation, .equal => some (.relation .equal)
  | .relation, .notEqual => some (.relation .notEqual)
  | .relation, .within => some (.relation .within)
  | .sum, .plus => some (.arithmetic .add)
  | .sum, .minus => some (.arithmetic .subtract)
  | .product, .star => some (.arithmetic .multiply)
  | .product, .slash => some (.arithmetic .divide)
  | .product, .percent => some (.arithmetic .modulo)
  | _, _ => none

end Level

namespace Expression

/-- A minus in front of an operand.  In front of a number it is folded into the
literal, so that `-1` is one literal; the least whole number has no negation and
is left alone. -/
def negated : Expression → Expression
  | .literal (.int n) =>
      if n = Int64.minValue then .unary .negate (.literal (.int n)) else .literal (.int (-n))
  | .literal (.float x) => .literal (.float (-x))
  | operand => .unary .negate operand

section
variable (negate : Expression → Expression)

mutual

/-- An expression of any form, one level down. -/
def readExpression : Nat → Cursor → Except Fault (Expression × Cursor)
  | 0, _ => .error .unexpectedEnd
  | steps + 1, c => do
      let c ← c.deeper
      let (condition, c) ← readChain steps .disjunction c
      match c.accept? .question with
      | none => .ok (condition, c.higher)
      | some c => do
          let (yes, c) ← readExpression steps c
          let c ← c.require .colon
          let (no, c) ← readExpression steps c
          .ok (.conditional condition yes no, c.higher)

/-- Operands joined by the operators of one level. -/
def readChain : Nat → Level → Cursor → Except Fault (Expression × Cursor)
  | 0, _, _ => .error .unexpectedEnd
  | steps + 1, level, c => do
      let (first, after) ← readOperand steps level c
      let (e, after) ← readLinks steps level first after
      .ok (e, after.backTo c.depth)

/-- An operand of a level: a chain of the next tighter level. -/
def readOperand : Nat → Level → Cursor → Except Fault (Expression × Cursor)
  | 0, _, _ => .error .unexpectedEnd
  | steps + 1, level, c =>
      match level.tighter? with
      | some tighter => readChain steps tighter c
      | none => readUnary steps c

/-- Further operands of a chain, each one level deeper than the one before. -/
def readLinks : Nat → Level → Expression → Cursor → Except Fault (Expression × Cursor)
  | 0, _, _, _ => .error .unexpectedEnd
  | steps + 1, level, left, c =>
      match c.current?.bind level.join? with
      | none => .ok (left, c)
      | some join => do
          let c ← c.advance.deeper
          let (right, c) ← readOperand steps level c
          readLinks steps level (join left right) c

/-- An operand with operators in front. -/
def readUnary : Nat → Cursor → Except Fault (Expression × Cursor)
  | 0, _ => .error .unexpectedEnd
  | steps + 1, c =>
      match c.current? with
      | some .not => do
          let c ← c.advance.deeper
          let (operand, c) ← readUnary steps c
          .ok (.unary .not operand, c.higher)
      | some .minus => do
          let c ← c.advance.deeper
          let (operand, c) ← readUnary steps c
          .ok (negate operand, c.higher)
      | _ => readMember steps c

/-- A simple expression with member steps behind it. -/
def readMember : Nat → Cursor → Except Fault (Expression × Cursor)
  | 0, _ => .error .unexpectedEnd
  | steps + 1, c => do
      let (target, after) ← readPrimary steps c
      let (e, after) ← readSteps steps target after
      .ok (e, after.backTo c.depth)

/-- Further member steps, each one level deeper than the one before. -/
def readSteps : Nat → Expression → Cursor → Except Fault (Expression × Cursor)
  | 0, _, _ => .error .unexpectedEnd
  | steps + 1, target, c =>
      match c.current? with
      | some .dot => do
          let c ← c.advance.deeper
          let (name, c) ← c.name
          match c.accept? .openParen with
          | none => readSteps steps (.member target name) c
          | some c => do
              let (args, c) ← readItems steps .closeParen c
              readSteps steps (.method target name args) c
      | some .openBracket => do
          let c ← c.advance.deeper
          let (position, c) ← readExpression steps c
          let c ← c.require .closeBracket
          readSteps steps (.index target position) c
      | _ => .ok (target, c)

/-- Expressions with commas between them up to the token `close`; a comma may
also stand after the last. -/
def readItems : Nat → Token → Cursor → Except Fault (List Expression × Cursor)
  | 0, _, _ => .error .unexpectedEnd
  | steps + 1, close, c =>
      match c.accept? close with
      | some c => .ok ([], c)
      | none => do
          let (item, c) ← readExpression steps c
          match c.accept? .comma with
          | some c => do
              let (items, c) ← readItems steps close c
              .ok (item :: items, c)
          | none => do
              let c ← c.require close
              .ok ([item], c)

/-- Pairs of expressions with commas between them up to the closing brace; a comma
may also stand after the last. -/
def readEntries : Nat → Cursor → Except Fault (List (Expression × Expression) × Cursor)
  | 0, _ => .error .unexpectedEnd
  | steps + 1, c =>
      match c.accept? .closeBrace with
      | some c => .ok ([], c)
      | none => do
          let (key, c) ← readExpression steps c
          let c ← c.require .colon
          let (value, c) ← readExpression steps c
          match c.accept? .comma with
          | some c => do
              let (entries, c) ← readEntries steps c
              .ok ((key, value) :: entries, c)
          | none => do
              let c ← c.require .closeBrace
              .ok ([(key, value)], c)

/-- A literal, a name, a call by name, or something in brackets. -/
def readPrimary : Nat → Cursor → Except Fault (Expression × Cursor)
  | 0, _ => .error .unexpectedEnd
  | steps + 1, c => do
      let (lexeme, c) ← c.next
      match lexeme.token with
      | .null => .ok (.literal .null, c)
      | .bool b => .ok (.literal (.bool b), c)
      | .int n => .ok (.literal (.int n), c)
      | .float x => .ok (.literal (.float x), c)
      | .string s => .ok (.literal (.string s), c)
      | .identifier name =>
          match c.accept? .openParen with
          | none => .ok (.ident name, c)
          | some c => do
              let (args, c) ← readItems steps .closeParen c
              .ok (.call name args, c)
      | .openParen => do
          let (e, c) ← readExpression steps c
          let c ← c.require .closeParen
          .ok (e, c)
      | .openBracket => do
          let (elements, c) ← readItems steps .closeBracket c
          .ok (.list elements, c)
      | .openBrace => do
          let (entries, c) ← readEntries steps c
          .ok (.map entries, c)
      | found => .error (.misplaced (.unexpected found) lexeme.start)

end

/-! What a simple expression is read as goes by its first token. -/

section
variable {steps start stop depth : Nat} {rest : List Lexeme}

theorem readPrimary_identifier (name : String) :
    readPrimary negate (steps + 1) ⟨⟨.identifier name, start, stop⟩ :: rest, depth⟩ =
      match Cursor.accept? ⟨rest, depth⟩ .openParen with
      | none => .ok (.ident name, ⟨rest, depth⟩)
      | some c => readItems negate steps .closeParen c >>= fun p => .ok (.call name p.1, p.2) :=
  rfl

theorem readPrimary_openParen :
    readPrimary negate (steps + 1) ⟨⟨.openParen, start, stop⟩ :: rest, depth⟩ =
      (readExpression negate steps ⟨rest, depth⟩ >>= fun p =>
        p.2.require .closeParen >>= fun c => .ok (p.1, c)) :=
  rfl

theorem readPrimary_openBracket :
    readPrimary negate (steps + 1) ⟨⟨.openBracket, start, stop⟩ :: rest, depth⟩ =
      (readItems negate steps .closeBracket ⟨rest, depth⟩ >>= fun p => .ok (.list p.1, p.2)) :=
  rfl

theorem readPrimary_openBrace :
    readPrimary negate (steps + 1) ⟨⟨.openBrace, start, stop⟩ :: rest, depth⟩ =
      (readEntries negate steps ⟨rest, depth⟩ >>= fun p => .ok (.map p.1, p.2)) :=
  rfl

end

/-- Enough steps to read any expression of so many tokens: between two tokens a
reader passes at most one of each kind and level. -/
def stepsFor (tokens : Nat) : Nat := 20 * (tokens + 1)

/-- Read a whole sequence of tokens as one expression, a minus sign in front of an
operand acting as `negate`. -/
def ofTokensWith (lexemes : List Lexeme) : Except Fault Expression := do
  let (e, c) ← readExpression negate (stepsFor lexemes.length) ⟨lexemes, 0⟩
  match c.rest with
  | [] => .ok e
  | lexeme :: _ => .error (.misplaced (.trailing lexeme.token) lexeme.start)

/-- Read source text as one expression, a minus sign in front of an operand acting
as `negate`. -/
def parseWith (source : String) : Except Fault Expression :=
  match Lexeme.ofSource source with
  | .error (cause, position) => .error (.lexical cause position)
  | .ok lexemes => ofTokensWith negate lexemes

end

/-- **Read source text as one expression.** -/
def parse (source : String) : Except Fault Expression := parseWith negated source

end Expression
end Placement
