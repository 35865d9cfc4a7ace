import Placement.Proofs.Expression.DepthLimit
import Placement.Proofs.Expression.Literals
import Placement.Proofs.Expression.Splitting
/-! # Values as source text

Any value without doubles can be written as a literal: words for the scalars, quotes around
texts, brackets around the rest.  **Its text is read as the literal of the value, unless the
least whole number stands in it** (`Expression.parse_write`).  That number has no text: the
sign is read after the digits, and the digits alone are too large.
-/
namespace Placement

/-- What is left open in how values are written: the quote, and the blanks behind commas and
colons. -/
structure LiteralStyle where
  quote : Char
  gap : List Char
  isQuote : quote = '"' ∨ quote = '\''
  isBlank : ∀ c ∈ gap, Token.isBlank c = true

namespace Value

/-! ## Text and tokens of a value -/

mutual

/-- **A value as source text.**  Doubles stand as in messages; nothing is claimed of them. -/
def write (style : LiteralStyle) : Value → List Char
  | .null => "null".toList
  | .bool b => (if b then "true" else "false").toList
  | .int n => (toString n.toInt).toList
  | .float x => (FloatStyle.message.render x).toList
  | .string s => Token.quoted style.quote s
  | .list items => '[' :: writeItems style items
  | .map entries => '\x7b' :: writeEntries style entries

/-- The elements of a list, up to the closing bracket. -/
def writeItems (style : LiteralStyle) : List Value → List Char
  | [] => [']']
  | [v] => write style v ++ [']']
  | v :: w :: rest => write style v ++ ',' :: (style.gap ++ writeItems style (w :: rest))

/-- The entries of a map, up to the closing bracket. -/
def writeEntries (style : LiteralStyle) : List (String × Value) → List Char
  | [] => ['\x7d']
  | [(key, v)] => Token.quoted style.quote key ++ ':' :: (style.gap ++ (write style v ++ ['\x7d']))
  | (key, v) :: entry :: rest =>
      Token.quoted style.quote key ++ ':' :: (style.gap ++ (write style v ++
        ',' :: (style.gap ++ writeEntries style (entry :: rest))))

end

mutual

/-- The tokens of that text. -/
def tokens : Value → List Token
  | .null => [.null]
  | .bool b => [.bool b]
  | .int n => if 0 ≤ n.toInt then [.int n] else [.minus, .int (-n)]
  | .float x => [.float x]
  | .string s => [.string s]
  | .list items => .openBracket :: tokensOfItems items
  | .map entries => .openBrace :: tokensOfEntries entries

def tokensOfItems : List Value → List Token
  | [] => [.closeBracket]
  | [v] => tokens v ++ [.closeBracket]
  | v :: w :: rest => tokens v ++ .comma :: tokensOfItems (w :: rest)

def tokensOfEntries : List (String × Value) → List Token
  | [] => [.closeBrace]
  | [(key, v)] => .string key :: .colon :: (tokens v ++ [.closeBrace])
  | (key, v) :: entry :: rest =>
      .string key :: .colon :: (tokens v ++ .comma :: tokensOfEntries (entry :: rest))

end

mutual

/-- The scalars in a value. -/
def leaves : Value → List Value
  | .list items => leavesOfItems items
  | .map entries => leavesOfEntries entries
  | scalar => [scalar]

def leavesOfItems : List Value → List Value
  | [] => []
  | v :: rest => leaves v ++ leavesOfItems rest

def leavesOfEntries : List (String × Value) → List Value
  | [] => []
  | (_, v) :: rest => leaves v ++ leavesOfEntries rest

end

mutual

/-- How many brackets stand around the innermost scalars. -/
def nesting : Value → Nat
  | .list items => nestingOfItems items + 1
  | .map entries => nestingOfEntries entries + 1
  | _ => 0

def nestingOfItems : List Value → Nat
  | [] => 0
  | v :: rest => max (nesting v) (nestingOfItems rest)

def nestingOfEntries : List (String × Value) → Nat
  | [] => 0
  | (_, v) :: rest => max (nesting v) (nestingOfEntries rest)

end

/-- No double among some scalars. -/
def Plain (scalars : List Value) : Prop := ∀ x, Value.float x ∉ scalars

theorem plain_append {scalars others : List Value} :
    Plain (scalars ++ others) ↔ Plain scalars ∧ Plain others := by
  simp only [Plain, List.mem_append, not_or, forall_and]

/-- The least whole number. -/
def isLeast : Value → Bool
  | .int n => n == Int64.minValue
  | _ => false

theorem any_isLeast {scalars : List Value} :
    scalars.any isLeast = true ↔ Value.int Int64.minValue ∈ scalars := by
  rw [List.any_eq_true]
  constructor
  · rintro ⟨v, hmem, hleast⟩
    cases v with
    | int n => exact beq_iff_eq.mp hleast ▸ hmem
    | _ => cases hleast
  · exact fun hmem => ⟨_, hmem, rfl⟩

/-! ## Splitting the text -/

section
open Token
variable {c : Char} {rest : List Char}

theorem ends_cons (h : continuesName c = false) (hpoint : c ≠ '.') (rest : List Char) :
    Ends (c :: rest) := by
  rintro d ⟨⟩
  exact ⟨h, hpoint⟩

/-- Only the digits of the least whole number are too large. -/
theorem isLeast_int (n : Int64) :
    isLeast (.int n) = decide (0x8000000000000000 ≤ n.toInt.natAbs) := by
  have hlower := n.le_toInt
  have hupper := n.toInt_lt
  have hn : n = Int64.minValue ↔ n.toInt = -0x8000000000000000 := Int64.toInt_inj.symm
  refine decide_eq_decide.mpr ?_
  rw [hn]
  omega

/-- The digits of a whole number, and the sign as a token of its own. -/
theorem ofText_int (n : Int64) (hrest : Ends rest) :
    ofText ((toString n.toInt).toList ++ rest) =
      ahead (isLeast (.int n)) (tokens (.int n)) (ofText rest) := by
  rw [Numeral.toList_toString, tokens, isLeast_int]
  by_cases hn : 0 ≤ n.toInt
  · have hsize : n.toInt.toNat = n.toInt.natAbs := by omega
    have hdigits : Int64.ofNat n.toInt.natAbs = n := by
      rw [← Int64.ofInt_eq_ofNat, Int.natAbs_of_nonneg hn, Int64.ofInt_toInt]
    rw [if_pos hn, if_pos hn, hsize, ofText_digits _ hrest, hdigits]
  · have hsize : (-n.toInt).toNat = n.toInt.natAbs := by omega
    have hdigits : Int64.ofNat n.toInt.natAbs = -n := by
      rw [← Int64.ofInt_eq_ofNat, Int.ofNat_natAbs_of_nonpos (by omega), Int64.ofInt_neg,
        Int64.ofInt_toInt]
    rw [if_neg hn, if_neg hn, hsize, List.cons_append, ofText_ok (t := .minus) rfl,
      ofText_digits _ hrest, hdigits, ahead_ahead]
    rfl

theorem ofText_key (style : LiteralStyle) (key : String) (text : List Char) :
    ofText (quoted style.quote key ++ ':' :: (style.gap ++ text)) =
      ahead false [.string key, .colon] (ofText text) := by
  rw [ofText_quoted style.isQuote, ofText_ok (t := .colon) rfl, ofText_blanks style.isBlank,
    ahead_ahead]
  rfl

mutual

theorem ofText_write (style : LiteralStyle) : ∀ v : Value, Plain v.leaves → ∀ rest, Ends rest →
    ofText (v.write style ++ rest) = ahead (v.leaves.any isLeast) v.tokens (ofText rest)
  | .null, _, _, hrest => ofText_word (c := 'n') rfl (List.all_eq_true.mp rfl) hrest
  | .bool true, _, _, hrest => ofText_word (c := 't') rfl (List.all_eq_true.mp rfl) hrest
  | .bool false, _, _, hrest => ofText_word (c := 'f') rfl (List.all_eq_true.mp rfl) hrest
  | .int n, _, _, hrest => by
      have hleast : (Value.int n).leaves.any isLeast = isLeast (.int n) := Bool.or_false _
      rw [write, ofText_int n hrest, hleast]
  | .float x, h, _, _ => absurd List.mem_cons_self (h x)
  | .string s, _, rest, _ => ofText_quoted style.isQuote s rest
  | .list items, h, rest, _ => by
      rw [leaves] at h
      rw [write, tokens, leaves, List.cons_append, ofText_ok (t := .openBracket) rfl,
        ofText_writeItems style items h rest, ahead_ahead]
      rfl
  | .map entries, h, rest, _ => by
      rw [leaves] at h
      rw [write, tokens, leaves, List.cons_append, ofText_ok (t := .openBrace) rfl,
        ofText_writeEntries style entries h rest, ahead_ahead]
      rfl

theorem ofText_writeItems (style : LiteralStyle) : ∀ items : List Value,
    Plain (leavesOfItems items) → ∀ rest, ofText (writeItems style items ++ rest) =
      ahead ((leavesOfItems items).any isLeast) (tokensOfItems items) (ofText rest)
  | [], _, _ => ofText_ok rfl
  | [v], h, rest => by
      have hends : Ends (']' :: rest) := ends_cons rfl (by decide) rest
      rw [leavesOfItems, leavesOfItems, List.append_nil] at h ⊢
      rw [writeItems, tokensOfItems, List.append_assoc, List.singleton_append,
        ofText_write style v h _ hends, ofText_ok (t := .closeBracket) rfl, ahead_ahead,
        Bool.or_false]
  | v :: w :: more, h, rest => by
      rw [leavesOfItems] at h ⊢
      obtain ⟨hv, hmore⟩ := plain_append.mp h
      have hends : Ends (',' :: (style.gap ++ (writeItems style (w :: more) ++ rest))) :=
        ends_cons rfl (by decide) _
      rw [writeItems, tokensOfItems, List.append_assoc, List.cons_append, List.append_assoc,
        ofText_write style v hv _ hends, ofText_ok (t := .comma) rfl,
        ofText_blanks style.isBlank, ofText_writeItems style (w :: more) hmore rest, ahead_ahead,
        ahead_ahead, List.any_append, Bool.or_false, List.append_assoc]
      rfl

theorem ofText_writeEntries (style : LiteralStyle) : ∀ entries : List (String × Value),
    Plain (leavesOfEntries entries) → ∀ rest, ofText (writeEntries style entries ++ rest) =
      ahead ((leavesOfEntries entries).any isLeast) (tokensOfEntries entries) (ofText rest)
  | [], _, _ => ofText_ok rfl
  | [(key, v)], h, rest => by
      have hends : Ends ('\x7d' :: rest) := ends_cons rfl (by decide) rest
      rw [leavesOfEntries, leavesOfEntries, List.append_nil] at h ⊢
      rw [writeEntries, tokensOfEntries, List.append_assoc, List.cons_append, List.append_assoc,
        List.append_assoc, List.singleton_append, ofText_key, ofText_write style v h _ hends,
        ofText_ok (t := .closeBrace) rfl, ahead_ahead, ahead_ahead, Bool.or_false, Bool.false_or]
      rfl
  | (key, v) :: entry :: more, h, rest => by
      rw [leavesOfEntries] at h ⊢
      obtain ⟨hv, hmore⟩ := plain_append.mp h
      have hends : Ends (',' :: (style.gap ++ (writeEntries style (entry :: more) ++ rest))) :=
        ends_cons rfl (by decide) _
      rw [writeEntries, tokensOfEntries, List.append_assoc, List.cons_append, List.append_assoc,
        List.append_assoc, List.cons_append, List.append_assoc, ofText_key,
        ofText_write style v hv _ hends, ofText_ok (t := .comma) rfl,
        ofText_blanks style.isBlank, ofText_writeEntries style (entry :: more) hmore rest,
        ahead_ahead, ahead_ahead, ahead_ahead, List.any_append, Bool.false_or, Bool.or_false,
        List.append_assoc, List.append_assoc]
      rfl

end

end

end Value

/-! ## Reading the tokens -/

namespace Expression
open Value

/-- An operand with operators in front is an expression, one level further in. -/
theorem derives_of_unary {n : Nat} {ts : List Token} {e : Expression}
    (h : Derives negated .unary n ts e) : Derives negated .expression (n + 1) ts e :=
  .bare <| .first <| .tighter rfl <| .first <| .tighter rfl <| .first <| .tighter rfl <|
    .first <| .tighter rfl <| .first <| .tightest rfl h

/-- The sign of a whole number is part of its literal. -/
theorem derives_int {n : Int64} (h : isLeast (.int n) = false) :
    ∃ k ≤ 1, Derives negated .unary k (tokens (.int n)) (ofValue (.int n)) := by
  rw [tokens, ofValue]
  by_cases hn : 0 ≤ n.toInt
  · rw [if_pos hn]
    exact ⟨0, Nat.zero_le 1, .member (.simple .int)⟩
  · rw [if_neg hn]
    have hminus : Derives negated .unary 1 [.minus, .int (-n)] (negated (.literal (.int (-n)))) :=
      .minus (.member (.simple .int))
    have hne : -n ≠ Int64.minValue := by
      intro hleast
      rw [← Int64.neg_neg (a := n), hleast] at h
      cases h
    have hfold : negated (.literal (.int (-n))) = .literal (.int n) := by
      rw [negated, if_neg hne, Int64.neg_neg]
    exact ⟨1, Nat.le_refl 1, hfold ▸ hminus⟩

mutual

theorem derives_tokens : ∀ v : Value, v.leaves.any isLeast = false →
    ∃ n ≤ v.nesting + 2, Derives negated .expression n v.tokens (ofValue v)
  | .null, _ => ⟨1, Nat.le_succ 1, derives_of_unary (.member (.simple .null))⟩
  | .bool _, _ => ⟨1, Nat.le_succ 1, derives_of_unary (.member (.simple .bool))⟩
  | .float _, _ => ⟨1, Nat.le_succ 1, derives_of_unary (.member (.simple .float))⟩
  | .string _, _ => ⟨1, Nat.le_succ 1, derives_of_unary (.member (.simple .string))⟩
  | .int n, h => by
      obtain ⟨k, hk, hint⟩ := derives_int ((Bool.or_eq_false_iff.mp h).1)
      exact ⟨k + 1, Nat.succ_le_succ hk, derives_of_unary hint⟩
  | .list items, h => by
      obtain ⟨n, hn, hitems⟩ := derives_tokensOfItems items h
      exact ⟨n + 1, Nat.succ_le_succ hn, derives_of_unary (.member (.simple (.list hitems)))⟩
  | .map entries, h => by
      obtain ⟨n, hn, hentries⟩ := derives_tokensOfEntries entries h
      exact ⟨n + 1, Nat.succ_le_succ hn, derives_of_unary (.member (.simple (.map hentries)))⟩

theorem derives_tokensOfItems : ∀ items : List Value, (leavesOfItems items).any isLeast = false →
    ∃ n ≤ nestingOfItems items + 2,
      Derives negated (.items .closeBracket) n (tokensOfItems items) (.list (ofItems items))
  | [], _ => ⟨0, Nat.zero_le _, .noItems⟩
  | [v], h => by
      rw [leavesOfItems, leavesOfItems, List.append_nil] at h
      obtain ⟨n, hn, hv⟩ := derives_tokens v h
      exact ⟨n, by simpa only [nestingOfItems, Nat.max_zero] using hn, .lastItem hv⟩
  | v :: w :: more, h => by
      rw [leavesOfItems, List.any_append, Bool.or_eq_false_iff] at h
      obtain ⟨n, hn, hv⟩ := derives_tokens v h.1
      obtain ⟨m, hm, hmore⟩ := derives_tokensOfItems (w :: more) h.2
      refine ⟨max n m, ?_, .moreItems hv hmore⟩
      rw [nestingOfItems]
      omega

theorem derives_tokensOfEntries : ∀ entries : List (String × Value),
    (leavesOfEntries entries).any isLeast = false →
    ∃ n ≤ nestingOfEntries entries + 2,
      Derives negated .entries n (tokensOfEntries entries) (.map (ofEntries entries))
  | [], _ => ⟨0, Nat.zero_le _, .noEntries⟩
  | [(key, v)], h => by
      rw [leavesOfEntries, leavesOfEntries, List.append_nil] at h
      obtain ⟨n, hn, hv⟩ := derives_tokens v h
      refine ⟨max 1 n, ?_, .lastEntry (derives_of_unary (.member (.simple .string))) hv⟩
      rw [nestingOfEntries, nestingOfEntries]
      omega
  | (key, v) :: entry :: more, h => by
      rw [leavesOfEntries, List.any_append, Bool.or_eq_false_iff] at h
      obtain ⟨n, hn, hv⟩ := derives_tokens v h.1
      obtain ⟨m, hm, hmore⟩ := derives_tokensOfEntries (entry :: more) h.2
      refine ⟨max 1 (max n m), ?_,
        .moreEntries (derives_of_unary (.member (.simple .string))) hv hmore⟩
      rw [nestingOfEntries]
      omega

end

/-- **Every value without doubles is read back from its text**, whatever quotes and blanks it is
written with, if it is nested within the limit and the least whole number is not in it.  If that
is in it, no other fault can come before: the number counts as too large. -/
theorem parse_write (style : LiteralStyle) {v : Value} (hcanonical : v.Canonical)
    (hplain : Plain v.leaves) (hnesting : v.nesting + 2 ≤ maxDepth) :
    (Value.int Int64.minValue ∉ v.leaves →
      parse (String.ofList (v.write style)) = .ok (ofValue v)) ∧
    (Value.int Int64.minValue ∈ v.leaves →
      ∃ position, parse (String.ofList (v.write style)) =
        .error (.lexical .integerTooLarge position)) ∧
    ∀ ctx, (ofValue v).eval ctx = .ok v := by
  have htext := ofText_write style v hplain [] nofun
  rw [List.append_nil, Token.ofText_nil] at htext
  refine ⟨fun hleast => ?_, fun hleast => ?_, fun ctx => eval_ofValue ctx v hcanonical⟩
  · have hnone : v.leaves.any isLeast = false := Bool.eq_false_iff.mpr (mt any_isLeast.mp hleast)
    obtain ⟨n, hn, hderives⟩ := derives_tokens v hnone
    rw [hnone] at htext
    obtain ⟨lexemes, hscan, htokens⟩ := Token.exists_scan_ok htext 0
    have htokens := htokens.trans (List.append_nil v.tokens)
    have hsource : Lexeme.ofSource (String.ofList (v.write style)) = .ok lexemes := by
      rw [Lexeme.ofSource, String.toList_ofList, hscan]
    rw [parse_of_derives hsource (htokens ▸ hderives), if_pos (Nat.le_trans hn hnesting)]
  · rw [any_isLeast.mpr hleast] at htext
    obtain ⟨position, hscan⟩ := Token.exists_scan_error htext
    refine ⟨position, ?_⟩
    rw [parse, parseWith, Lexeme.ofSource, String.toList_ofList, hscan]

/-- A map with an escaped quote and a number below zero in it; and the least whole number in a
list. -/
theorem written_map_read :
    let v : Value := .map [("a", .list [.int (-7), .string "it's"]), ("b", .null)]
    parse "\x7b'a': [-7, 'it\\'s'], 'b': null\x7d" = .ok (ofValue v) ∧
      (∀ ctx, (ofValue v).eval ctx = .ok v) ∧
      ∃ position, parse "[-9223372036854775808]" = .error (.lexical .integerTooLarge position) := by
  intro v
  let style : LiteralStyle := ⟨'\'', [' '], .inr rfl, List.all_eq_true.mp rfl⟩
  have hcanonical : v.Canonical := by
    refine ⟨?_, ⟨trivial, trivial, trivial⟩, trivial, trivial⟩
    rw [Entries.Ascending]
    decide
  have hplain : Plain v.leaves := by
    show Plain [.int (-7), .string "it's", .null]
    simp [Plain]
  have htext : String.ofList (v.write style) = "\x7b'a': [-7, 'it\\'s'], 'b': null\x7d" := by
    decide
  obtain ⟨hread, -, heval⟩ := parse_write style hcanonical hplain (by decide)
  rw [htext] at hread
  let least : Value := .list [.int Int64.minValue]
  have hplain' : Plain least.leaves := by
    show Plain [.int Int64.minValue]
    simp [Plain]
  have htext' : String.ofList (least.write style) = "[-9223372036854775808]" := by decide
  obtain ⟨-, hfault, -⟩ := parse_write style (v := least) ⟨trivial, trivial⟩ hplain' (by decide)
  rw [htext'] at hfault
  exact ⟨hread (mt any_isLeast.mpr (by decide)), heval, hfault List.mem_cons_self⟩

end Expression
end Placement
