import Placement.Decimal.Notation
import Placement.Decimal.Numeral
import Placement.Text.Quoted
/-! # Tokens of expression source

Source text is a sequence of tokens with blanks between them.  Each token is the
**longest** one that can be read where it starts, so `nullable` is one name and
`1.5` one number.  A text in quotes may hold any character; inside it a
backslash starts an escape.
-/
namespace Placement

/-- A token. -/
inductive Token
  | less | lessEqual | greater | greaterEqual | equal | notEqual
  | not | within | and | or
  | plus | minus | star | slash | percent
  | question | colon | dot | comma
  | openParen | closeParen | openBracket | closeBracket | openBrace | closeBrace
  | null
  | bool (b : Bool)
  | int (n : Int64)
  | float (x : Float)
  | string (s : String)
  | identifier (name : String)
  deriving DecidableEq

/-- Why no token can be read. -/
inductive LexicalFault
  /-- No token starts with these characters. -/
  | invalidToken
  /-- The digits spell a number that 64 bits cannot hold. -/
  | integerTooLarge
  /-- A quoted text holds an escape that does not exist. -/
  | invalidEscape
  deriving DecidableEq

/-- The text of a lexical fault. -/
def LexicalFault.message : LexicalFault → String
  | .invalidToken => "invalid token"
  | .integerTooLarge => "failed to parse integer: number too large to fit in target type"
  | .invalidEscape => "invalid escape sequence in string literal"

/-- A token with the bytes of the source it stands for. -/
structure Lexeme where
  token : Token
  /-- Bytes before the token. -/
  start : Nat
  /-- Bytes up to the end of the token. -/
  stop : Nat
  deriving DecidableEq

namespace Token

/-- The name of a token in messages. -/
def describe : Token → String
  | .less => "LessThan"
  | .lessEqual => "LessThanEqual"
  | .greater => "GreaterThan"
  | .greaterEqual => "GreaterThanEqual"
  | .equal => "Equal"
  | .notEqual => "NotEqual"
  | .not => "Not"
  | .within => "In"
  | .and => "And"
  | .or => "Or"
  | .plus => "Plus"
  | .minus => "Minus"
  | .star => "Star"
  | .slash => "Slash"
  | .percent => "Percent"
  | .question => "Question"
  | .colon => "Colon"
  | .dot => "Dot"
  | .comma => "Comma"
  | .openParen => "LeftParenthesis"
  | .closeParen => "RightParenthesis"
  | .openBracket => "LeftSquareBracket"
  | .closeBracket => "RightSquareBracket"
  | .openBrace => "LeftBrace"
  | .closeBrace => "RightBrace"
  | .null => "Null"
  | .bool b => "BooleanLiteral(" ++ (if b then "true" else "false") ++ ")"
  | .int n => "IntegerLiteral(" ++ toString n.toInt ++ ")"
  | .float x => "FloatLiteral(" ++ FloatStyle.message.render x ++ ")"
  | .string s => "StringLiteral(" ++ Quoted.encode s ++ ")"
  | .identifier name => "Identifier(" ++ Quoted.encode name ++ ")"

/-! ## The classes of characters -/

/-- Characters between tokens. -/
def isBlank (c : Char) : Bool := c = ' ' || c = '\t' || c = '\r' || c = '\n' || c = '\x0c'

/-- Characters that start a name: the letters of plain text and the underscore. -/
def startsName (c : Char) : Bool := c.isAlpha || c = '_'

/-- Characters that continue a name. -/
def continuesName (c : Char) : Bool := c.isAlphanum || c = '_'

/-! ## Reading one token

Each reader gets a text and gives the token at its head and what follows. -/

/-- An operator or a bracket. -/
def symbol? : List Char → Option (Token × List Char)
  | '<' :: '=' :: rest => some (.lessEqual, rest)
  | '<' :: rest => some (.less, rest)
  | '>' :: '=' :: rest => some (.greaterEqual, rest)
  | '>' :: rest => some (.greater, rest)
  | '=' :: '=' :: rest => some (.equal, rest)
  | '!' :: '=' :: rest => some (.notEqual, rest)
  | '!' :: rest => some (.not, rest)
  | '&' :: '&' :: rest => some (.and, rest)
  | '|' :: '|' :: rest => some (.or, rest)
  | '+' :: rest => some (.plus, rest)
  | '-' :: rest => some (.minus, rest)
  | '*' :: rest => some (.star, rest)
  | '/' :: rest => some (.slash, rest)
  | '%' :: rest => some (.percent, rest)
  | '?' :: rest => some (.question, rest)
  | ':' :: rest => some (.colon, rest)
  | '.' :: rest => some (.dot, rest)
  | ',' :: rest => some (.comma, rest)
  | '(' :: rest => some (.openParen, rest)
  | ')' :: rest => some (.closeParen, rest)
  | '[' :: rest => some (.openBracket, rest)
  | ']' :: rest => some (.closeBracket, rest)
  | '\x7b' :: rest => some (.openBrace, rest)
  | '\x7d' :: rest => some (.closeBrace, rest)
  | _ => none

/-- The token that a word stands for: a keyword or a name. -/
def ofWord (word : String) : Token :=
  if word = "in" then .within
  else if word = "null" then .null
  else if word = "true" then .bool true
  else if word = "false" then .bool false
  else .identifier word

/-- The whole number written by some digits, if 64 bits hold it. -/
def ofDigits (digits : List Char) : Except LexicalFault Token :=
  let n := Numeral.ofDigits digits
  if n < 0x8000000000000000 then .ok (.int (Int64.ofNat n)) else .error .integerTooLarge

/-- A number: digits, and if a point and more digits follow also those, with a
power of ten if one follows them. -/
def readNumber (text : List Char) : Except LexicalFault (Token × List Char) :=
  let (whole, rest) := Numeral.spanDigits text
  match rest with
  | '.' :: more =>
      let (fraction, afterFraction) := Numeral.spanDigits more
      if fraction.isEmpty then (ofDigits whole).map (·, rest)
      else
        match Numeral.exponent? afterFraction with
        | some (exponent, after) => .ok (.float (Numeral.toFloat whole fraction exponent), after)
        | none => .ok (.float (Numeral.toFloat whole fraction 0), afterFraction)
  | _ => (ofDigits whole).map (·, rest)

/-- The characters up to the closing quote, escapes left as they are, and what
follows the quote.  A backslash takes the next character with it, which cannot
be a line feed. -/
def spanQuoted (quote : Char) : List Char → Option (List Char × List Char)
  | [] => none
  | c :: rest =>
      if c = quote then some ([], rest)
      else if c = '\\' then
        match rest with
        | [] => none
        | d :: rest =>
            if d = '\n' then none
            else (spanQuoted quote rest).map fun (body, rest) => (c :: d :: body, rest)
      else (spanQuoted quote rest).map fun (body, rest) => (c :: body, rest)

/-- Resolve the escapes of a quoted text. -/
def unquoted : List Char → Option (List Char)
  | [] => some []
  | '\\' :: 'n' :: rest => (unquoted rest).map ('\n' :: ·)
  | '\\' :: 't' :: rest => (unquoted rest).map ('\t' :: ·)
  | '\\' :: 'r' :: rest => (unquoted rest).map ('\r' :: ·)
  | '\\' :: c :: rest =>
      if c = '\\' ∨ c = '"' ∨ c = '\'' then (unquoted rest).map (c :: ·) else none
  | c :: rest => if c = '\\' then none else (unquoted rest).map (c :: ·)

/-- A text in quotes. -/
def readQuoted (quote : Char) (text : List Char) : Except LexicalFault (Token × List Char) :=
  match spanQuoted quote text with
  | none => .error .invalidToken
  | some (body, rest) =>
      match unquoted body with
      | some s => .ok (.string (String.ofList s), rest)
      | none => .error .invalidEscape

/-- The token at the head of a text that starts with no blank, and what follows it. -/
def read : List Char → Except LexicalFault (Token × List Char)
  | [] => .error .invalidToken
  | c :: rest =>
      if startsName c then
        .ok (ofWord (String.ofList (c :: rest.takeWhile continuesName)),
          rest.dropWhile continuesName)
      else if c.isDigit then readNumber (c :: rest)
      else if c = '"' ∨ c = '\'' then readQuoted c rest
      else
        match symbol? (c :: rest) with
        | some found => .ok found
        | none => .error .invalidToken

end Token
end Placement
