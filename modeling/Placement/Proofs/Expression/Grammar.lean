import Placement.Expression.Source
/-! # The grammar of expressions

`Derives` says which sequences of tokens stand for which expression, form by form, as the
table of operators has it.  Chains of operators and of member steps group to the left, so a
longer chain is a shorter one with one more link.

A derivation also counts how deep a reader nests that follows it: **every nested
expression, every operator in front, and the later links of a chain the more the further
behind they stand**.  This number is not the height of the tree: a link puts the whole
chain before it one level down in the tree, but leaves the nesting of that chain as it was.
-/
namespace Placement

namespace Token

/-- How tightly a token holds on to an operand that stands before it; `0` if it does not. -/
def rank : Token → Nat
  | .openParen => 8
  | .dot | .openBracket => 7
  | .star | .slash | .percent => 6
  | .plus | .minus => 5
  | .less | .lessEqual | .greater | .greaterEqual | .equal | .notEqual | .within => 4
  | .and => 3
  | .or => 2
  | .question => 1
  | _ => 0

/-- Simple expressions start with such a token. -/
def startsPrimary : Token → Bool
  | .null | .bool _ | .int _ | .float _ | .string _ | .identifier _ => true
  | .openParen | .openBracket | .openBrace => true
  | _ => false

/-- Expressions start with such a token. -/
def startsExpression : Token → Bool
  | .not | .minus => true
  | t => t.startsPrimary

/-- Items end with such a token. -/
def closes : Token → Bool
  | .closeParen | .closeBracket => true
  | _ => false

theorem startsExpression_of_startsPrimary {t : Token} (h : t.startsPrimary = true) :
    t.startsExpression = true := by
  cases t <;> first | rfl | exact h

end Token

namespace Level

/-- The rank of the operators of a level. -/
def rank : Level → Nat
  | .disjunction => 2
  | .conjunction => 3
  | .relation => 4
  | .sum => 5
  | .product => 6

theorem rank_of_join? {level : Level} {t : Token} {join : Expression → Expression → Expression}
    (h : level.join? t = some join) : t.rank = level.rank := by
  cases level <;> cases t <;> first | rfl | cases h

theorem join?_eq_none {level : Level} {t : Token} (h : t.rank < level.rank) :
    level.join? t = none := by
  cases hjoin : level.join? t with
  | none => rfl
  | some join =>
      rw [rank_of_join? hjoin] at h
      exact absurd h (Nat.lt_irrefl _)

theorem rank_tighter {level tighter : Level} (h : level.tighter? = some tighter) :
    tighter.rank = level.rank + 1 := by
  cases level <;> cases h <;> rfl

theorem rank_tightest {level : Level} (h : level.tighter? = none) : level.rank = 6 := by
  cases level <;> cases h
  rfl

end Level

/-- What a sequence of tokens may be read as. -/
inductive Form
  | expression
  /-- Operands joined by so many operators of a level. -/
  | chain (level : Level) (links : Nat)
  /-- An operand of a level. -/
  | operand (level : Level)
  /-- An operand with operators in front. -/
  | unary
  /-- A simple expression with so many member steps. -/
  | steps (count : Nat)
  | primary
  /-- Expressions with commas between them, up to a closing token; read as a list. -/
  | items (close : Token)
  /-- Pairs of expressions with commas between them, up to a closing brace; read as a map. -/
  | entries

/-- **The tokens stand for the expression**, and a reader that follows nests so deep. -/
inductive Derives (negate : Expression → Expression) :
    Form → Nat → List Token → Expression → Prop
  | bare {k n ts e} : Derives negate (.chain .disjunction k) n ts e →
      Derives negate .expression (n + 1) ts e
  | conditional {k n y z cs ys zs condition yes no} :
      Derives negate (.chain .disjunction k) n cs condition →
      Derives negate .expression y ys yes → Derives negate .expression z zs no →
      Derives negate .expression (max n (max y z) + 1) (cs ++ .question :: (ys ++ .colon :: zs))
        (.conditional condition yes no)
  | first {level n ts e} : Derives negate (.operand level) n ts e →
      Derives negate (.chain level 0) n ts e
  | link {level k n m ls rs left right t join} : Derives negate (.chain level k) n ls left →
      level.join? t = some join → Derives negate (.operand level) m rs right →
      Derives negate (.chain level (k + 1)) (max n (k + 1 + m)) (ls ++ t :: rs) (join left right)
  | tighter {level tighter k n ts e} : level.tighter? = some tighter →
      Derives negate (.chain tighter k) n ts e → Derives negate (.operand level) n ts e
  | tightest {level n ts e} : level.tighter? = none → Derives negate .unary n ts e →
      Derives negate (.operand level) n ts e
  | not {n ts e} : Derives negate .unary n ts e →
      Derives negate .unary (n + 1) (.not :: ts) (.unary .not e)
  | minus {n ts e} : Derives negate .unary n ts e →
      Derives negate .unary (n + 1) (.minus :: ts) (negate e)
  | member {k n ts e} : Derives negate (.steps k) n ts e → Derives negate .unary n ts e
  | simple {n ts e} : Derives negate .primary n ts e → Derives negate (.steps 0) n ts e
  | select {k n ts e name} : Derives negate (.steps k) n ts e →
      Derives negate (.steps (k + 1)) (max n (k + 1)) (ts ++ [.dot, .identifier name])
        (.member e name)
  | method {k n m ts us e args name} : Derives negate (.steps k) n ts e →
      Derives negate (.items .closeParen) m us (.list args) →
      Derives negate (.steps (k + 1)) (max n (k + 1 + m))
        (ts ++ .dot :: .identifier name :: .openParen :: us) (.method e name args)
  | index {k n m ts us e position} : Derives negate (.steps k) n ts e →
      Derives negate .expression m us position →
      Derives negate (.steps (k + 1)) (max n (k + 1 + m))
        (ts ++ .openBracket :: (us ++ [.closeBracket])) (.index e position)
  | null : Derives negate .primary 0 [.null] (.literal .null)
  | bool {b} : Derives negate .primary 0 [.bool b] (.literal (.bool b))
  | int {i} : Derives negate .primary 0 [.int i] (.literal (.int i))
  | float {x} : Derives negate .primary 0 [.float x] (.literal (.float x))
  | string {s} : Derives negate .primary 0 [.string s] (.literal (.string s))
  | ident {name} : Derives negate .primary 0 [.identifier name] (.ident name)
  | call {n ts name args} : Derives negate (.items .closeParen) n ts (.list args) →
      Derives negate .primary n (.identifier name :: .openParen :: ts) (.call name args)
  | paren {n ts e} : Derives negate .expression n ts e →
      Derives negate .primary n (.openParen :: (ts ++ [.closeParen])) e
  | list {n ts elements} : Derives negate (.items .closeBracket) n ts (.list elements) →
      Derives negate .primary n (.openBracket :: ts) (.list elements)
  | map {n ts pairs} : Derives negate .entries n ts (.map pairs) →
      Derives negate .primary n (.openBrace :: ts) (.map pairs)
  | noItems {close} : Derives negate (.items close) 0 [close] (.list [])
  | lastItem {close n ts e} : Derives negate .expression n ts e →
      Derives negate (.items close) n (ts ++ [close]) (.list [e])
  | moreItems {close n m ts us e es} : Derives negate .expression n ts e →
      Derives negate (.items close) m us (.list es) →
      Derives negate (.items close) (max n m) (ts ++ .comma :: us) (.list (e :: es))
  | noEntries : Derives negate .entries 0 [.closeBrace] (.map [])
  | lastEntry {n m ks vs key value} : Derives negate .expression n ks key →
      Derives negate .expression m vs value →
      Derives negate .entries (max n m) (ks ++ .colon :: (vs ++ [.closeBrace]))
        (.map [(key, value)])
  | moreEntries {n m l ks vs us key value pairs} : Derives negate .expression n ks key →
      Derives negate .expression m vs value → Derives negate .entries l us (.map pairs) →
      Derives negate .entries (max n (max m l)) (ks ++ .colon :: (vs ++ .comma :: us))
        (.map ((key, value) :: pairs))

namespace Derives
variable {negate : Expression → Expression} {form : Form} {n : Nat} {ts : List Token}
  {e : Expression}

/-- The tokens start with one that satisfies a test. -/
def StartsWith (test : Token → Bool) (ts : List Token) : Prop :=
  ∃ t us, ts = t :: us ∧ test t = true

theorem StartsWith.append {test : Token → Bool} (h : StartsWith test ts) (us : List Token) :
    StartsWith test (ts ++ us) := by
  obtain ⟨t, rest, rfl, ht⟩ := h
  exact ⟨t, rest ++ us, rfl, ht⟩

/-- What the tokens of a form start with. -/
def Starts : Form → List Token → Prop
  | .items _, _ => True
  | .entries, _ => True
  | .steps _, ts => StartsWith Token.startsPrimary ts
  | .primary, ts => StartsWith Token.startsPrimary ts
  | _, ts => StartsWith Token.startsExpression ts

theorem starts (h : Derives negate form n ts e) : Starts form ts := by
  induction h with
  | bare _ ih => exact ih
  | conditional _ _ _ ih => exact ih.append _
  | first _ ih => exact ih
  | link _ _ _ ih => exact ih.append _
  | tighter _ _ ih => exact ih
  | tightest _ _ ih => exact ih
  | not => exact ⟨_, _, rfl, rfl⟩
  | minus => exact ⟨_, _, rfl, rfl⟩
  | member _ ih =>
      obtain ⟨t, us, hts, ht⟩ := ih
      exact ⟨t, us, hts, Token.startsExpression_of_startsPrimary ht⟩
  | simple _ ih => exact ih
  | select _ ih => exact ih.append _
  | method _ _ ih => exact ih.append _
  | index _ _ ih => exact ih.append _
  | null => exact ⟨_, _, rfl, rfl⟩
  | bool => exact ⟨_, _, rfl, rfl⟩
  | int => exact ⟨_, _, rfl, rfl⟩
  | float => exact ⟨_, _, rfl, rfl⟩
  | string => exact ⟨_, _, rfl, rfl⟩
  | ident => exact ⟨_, _, rfl, rfl⟩
  | call => exact ⟨_, _, rfl, rfl⟩
  | paren => exact ⟨_, _, rfl, rfl⟩
  | list => exact ⟨_, _, rfl, rfl⟩
  | map => exact ⟨_, _, rfl, rfl⟩
  | noItems => trivial
  | lastItem => trivial
  | moreItems => trivial
  | noEntries => trivial
  | lastEntry => trivial
  | moreEntries => trivial

/-- The number of links of a chain, and of member steps. -/
def links : Form → Nat
  | .chain _ k => k
  | .steps k => k
  | _ => 0

/-- Each link nests one level, and takes a token. -/
theorem links_le (h : Derives negate form n ts e) : links form ≤ n ∧ links form ≤ ts.length := by
  induction h with
  | link _ _ _ ih =>
      obtain ⟨hn, hts⟩ := ih
      simp only [links, List.length_append, List.length_cons] at hn hts ⊢
      omega
  | select _ ih =>
      obtain ⟨hn, hts⟩ := ih
      simp only [links, List.length_append, List.length_cons] at hn hts ⊢
      omega
  | method _ _ ih =>
      obtain ⟨hn, hts⟩ := ih
      simp only [links, List.length_append, List.length_cons] at hn hts ⊢
      omega
  | index _ _ ih =>
      obtain ⟨hn, hts⟩ := ih
      simp only [links, List.length_append, List.length_cons] at hn hts ⊢
      omega
  | _ => exact ⟨Nat.zero_le _, Nat.zero_le _⟩

end Derives
end Placement
