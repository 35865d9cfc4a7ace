import Placement.Expression.Lexeme
/-! # What can go wrong with an expression

Every way in which reading or evaluating an expression fails, as its cause.  The
wording is in one place, `Fault.message`.
-/
namespace Placement

/-- Why a sequence of tokens is no expression. -/
inductive Misplacement
  /-- A whole expression was read and a token is left. -/
  | trailing (found : Token)
  /-- One certain token had to stand here. -/
  | expected (wanted found : Token)
  /-- A name had to stand here. -/
  | expectedName (found : Token)
  /-- No expression starts with this token. -/
  | unexpected (found : Token)
  deriving DecidableEq

/-- The text of a misplacement. -/
def Misplacement.message : Misplacement → String
  | .trailing found => "unexpected " ++ found.describe ++ " after expression"
  | .expected wanted found => "expected " ++ wanted.describe ++ ", found " ++ found.describe
  | .expectedName found => "expected identifier, found " ++ found.describe
  | .unexpected found => "unexpected " ++ found.describe

/-- Why an operation on whole numbers has no result. -/
inductive ArithmeticFault
  | overflow
  | divisionByZero
  | modulusByZero
  deriving DecidableEq

/-- The text of an arithmetic fault. -/
def ArithmeticFault.message : ArithmeticFault → String
  | .overflow => "integer overflow"
  | .divisionByZero => "division by zero"
  | .modulusByZero => "modulus by zero"

/-- Why an expression has no value. -/
inductive Fault
  /-- The source holds something that is no token, after so many bytes. -/
  | lexical (cause : LexicalFault) (position : Nat)
  /-- The token after so many bytes is out of place. -/
  | misplaced (cause : Misplacement) (position : Nat)
  /-- The source ends inside an expression. -/
  | unexpectedEnd
  /-- The tree is deeper than `maxDepth`. -/
  | tooDeep
  /-- A rule has its condition both as text and as a tree. -/
  | ambiguous
  /-- A name that is no namespace. -/
  | unknownIdentifier (name : String)
  /-- A map without the key, or a list without the place. -/
  | noSuchKey (key : String)
  /-- A function that does not exist. -/
  | unknownFunction (name : String)
  /-- An operation on values of kinds it is not defined for. -/
  | noSuchOverload (operation : String) (kinds : List String)
  | arithmetic (cause : ArithmeticFault)
  /-- A text that is no pattern was used as one. -/
  | invalidPattern
  /-- A host call among the arguments of the host call `name`. -/
  | nestedHostCall (name : String)
  /-- A condition that has a value of another kind. -/
  | notBoolean (kind : String)
  deriving DecidableEq

namespace Fault

/-- The text of a fault. -/
def message : Fault → String
  | .lexical cause position => cause.message ++ " at " ++ toString position
  | .misplaced cause position => "syntax error at " ++ toString position ++ ": " ++ cause.message
  | .unexpectedEnd => "unexpected end of expression"
  | .tooDeep => "expression is nested too deeply"
  | .ambiguous => "rule has both expression text and expression tree"
  | .unknownIdentifier name => "undeclared reference to '" ++ name ++ "'"
  | .noSuchKey key => "no such key: " ++ key
  | .unknownFunction name => "unknown function: " ++ name
  | .noSuchOverload operation kinds =>
      "no such overload: " ++ operation ++ "(" ++ ", ".intercalate kinds ++ ")"
  | .arithmetic cause => "arithmetic error: " ++ cause.message
  | .invalidPattern => "invalid regex"
  | .nestedHostCall name => "nested host function call in arguments of " ++ name
  | .notBoolean kind => "expression evaluated to " ++ kind ++ ", expected bool"

end Fault

/-- Two steps that went well: so did the first one, and the second one from there. -/
theorem exists_of_bind_eq_ok {ε α β : Type} {x : Except ε α} {f : α → Except ε β} {b : β}
    (h : x >>= f = .ok b) : ∃ a, x = .ok a ∧ f a = .ok b := by
  cases x with
  | error fault => cases h
  | ok a => exact ⟨a, rfl, h⟩

end Placement
