import Placement.Proofs.Expression.Completeness
import Placement.Proofs.Expression.Height
import Placement.Proofs.Expression.Soundness
import Placement.Proofs.Expression.Splitting
import Placement.Rule
/-! # The limit on depth

A condition given as a tree is refused if the tree is deeper than `maxDepth`; a condition
given as text is refused if a reader nests deeper than that.  **These are two limits**
(`text_deeper_iff`): a text within the limit may stand for a tree beyond it, though never
beyond the square of it.

The texts `tower` show the difference: operators in front of the first operand of a chain,
and the links of the chain, add up in the tree but not in the nesting.
-/
namespace Placement.Expression

/-- **A text that stands for an expression is read as it**, or refused as too deep. -/
theorem parse_of_derives {source : String} {lexemes : List Lexeme} {n : Nat} {e : Expression}
    (hlexemes : Lexeme.ofSource source = .ok lexemes)
    (h : Derives negated .expression n (lexemes.map Lexeme.token) e) :
    parse source = if n ≤ maxDepth then .ok e else .error .tooDeep := by
  rw [parse, parseWith, hlexemes]
  exact ofTokensWith_of_derives h

/-- What is read from a text is what the text stands for. -/
theorem derives_of_parse {source : String} {e : Expression} (h : parse source = .ok e) :
    ∃ lexemes n, Lexeme.ofSource source = .ok lexemes ∧
      Derives negated .expression n (lexemes.map Lexeme.token) e ∧ n ≤ maxDepth := by
  rw [parse, parseWith] at h
  split at h
  · cases h
  · rename_i lexemes hlexemes
    obtain ⟨n, hderives, hn⟩ := derives_of_ofTokensWith h
    exact ⟨lexemes, n, hlexemes, hderives, hn⟩

theorem depth_lt_of_derives {n : Nat} {ts : List Token} {e : Expression}
    (h : Derives negated .expression n ts e) (hn : n ≤ maxDepth) :
    e.depth < 3 * (maxDepth * maxDepth) := by
  have hheight := height_le_of_derives h
  have hsquare := Nat.mul_le_mul hn hn
  have hpos : 0 < n := by
    cases h <;> exact Nat.succ_pos _
  rw [depth_eq_height]
  omega

/-- The condition of a rule that is given as text. -/
theorem condition_of_derives {rule : Rule} {source : String} {lexemes : List Lexeme} {n : Nat}
    {e : Expression} (hlexemes : Lexeme.ofSource source = .ok lexemes)
    (h : Derives negated .expression n (lexemes.map Lexeme.token) e) :
    Rule.condition { rule with expression := some source, expressionTree := none } =
      if n ≤ maxDepth then .ok (some e) else .error .tooDeep := by
  show (parse source).map some = _
  rw [parse_of_derives hlexemes h]
  split <;> rfl

/-! ## Towers -/

/-- A name with so many minus signs in front. -/
def minuses : Nat → Expression
  | 0 => .ident "x"
  | m + 1 => .unary .negate (minuses m)

/-- The same, multiplied so many times by the name. -/
def tower (m : Nat) : Nat → Expression
  | 0 => minuses m
  | k + 1 => .arithmetic .multiply (tower m k) (.ident "x")

/-- What is behind the first name of a tower. -/
def towerLinks {α : Type} (star x : α) : Nat → List α
  | 0 => []
  | k + 1 => star :: x :: towerLinks star x k

/-- The text of a tower, character by character or token by token. -/
def towerText {α : Type} (minus star x : α) (m k : Nat) : List α :=
  List.replicate m minus ++ x :: towerLinks star x k

theorem towerLinks_succ {α : Type} (star x : α) (k : Nat) :
    towerLinks star x (k + 1) = towerLinks star x k ++ [star, x] := by
  induction k with
  | zero => rfl
  | succ k ih => exact congrArg (star :: x :: ·) ih

theorem height_tower (m k : Nat) : (tower m k).height = m + k + 1 := by
  induction k with
  | zero =>
      induction m with
      | zero => rfl
      | succ m ih =>
          simp only [tower, minuses, height] at ih ⊢
          omega
  | succ k ih =>
      simp only [tower, height, ih]
      omega

theorem derives_ident {level : Level} :
    Derives negated (.operand level) 0 [.identifier "x"] (.ident "x") := by
  have hunary : Derives negated .unary 0 [.identifier "x"] (.ident "x") := .member (.simple .ident)
  cases level <;>
    repeat first | exact .tightest rfl hunary | refine .tighter rfl (.first ?_)

theorem derives_minuses (m : Nat) :
    Derives negated .unary m (List.replicate m .minus ++ [.identifier "x"]) (minuses m) := by
  induction m with
  | zero => exact .member (.simple .ident)
  | succ m ih =>
      have hnegated : negated (minuses m) = minuses (m + 1) := by cases m <;> rfl
      exact hnegated ▸ .minus ih

theorem derives_tower (m k : Nat) :
    Derives negated (.chain .product k) (max m k)
      (towerText .minus .star (.identifier "x") m k) (tower m k) := by
  induction k with
  | zero =>
      rw [Nat.max_zero]
      exact .first (.tightest rfl (derives_minuses m))
  | succ k ih =>
      have hjoin : Level.product.join? .star = some (.arithmetic .multiply) := rfl
      have hlink := ih.link hjoin derives_ident
      have hnests : max (max m k) (k + 1 + 0) = max m (k + 1) := by omega
      rw [hnests] at hlink
      rw [towerText, towerLinks_succ]
      show Derives negated (.chain .product (k + 1)) (max m (k + 1)) _
        (.arithmetic .multiply (tower m k) (.ident "x"))
      simpa only [towerText, List.append_assoc, List.cons_append] using hlink

theorem derives_tower_expression (m k : Nat) :
    Derives negated .expression (max m k + 1) (towerText .minus .star (.identifier "x") m k)
      (tower m k) :=
  .bare <| .first <| .tighter rfl <| .first <| .tighter rfl <| .first <| .tighter rfl <|
    .first <| .tighter rfl <| derives_tower m k

/-- **A text is split into these tokens**, wherever it starts. -/
def Spells (text : List Char) (ts : List Token) : Prop :=
  ∀ position, ∃ lexemes, Lexeme.scan position text = .ok lexemes ∧ lexemes.map Lexeme.token = ts

theorem spells_of_ofText {text : List Char} {ts : List Token} (h : Token.ofText text = .ok ts) :
    Spells text ts :=
  Token.exists_scan_ok h

theorem ofText_of_spells {text : List Char} {ts : List Token} (h : Spells text ts) :
    Token.ofText text = .ok ts := by
  obtain ⟨lexemes, hscan, rfl⟩ := h 0
  rw [Token.ofText, hscan]
  rfl

theorem Spells.cons {c : Char} {rest after : List Char} {t : Token} {ts : List Token}
    (h : Spells after ts) (hread : Token.read (c :: rest) = .ok (t, after)) :
    Spells (c :: rest) (t :: ts) := by
  refine spells_of_ofText ?_
  rw [Token.ofText_ok hread, ofText_of_spells h]
  rfl

theorem spells_towerLinks (k : Nat) :
    Spells ('x' :: towerLinks '*' 'x' k)
      (.identifier "x" :: towerLinks .star (.identifier "x") k) := by
  induction k with
  | zero =>
      have hend : Spells [] [] := spells_of_ofText Token.ofText_nil
      exact hend.cons rfl
  | succ k ih =>
      have hlink : Spells ('*' :: 'x' :: towerLinks '*' 'x' k)
          (.star :: .identifier "x" :: towerLinks .star (.identifier "x") k) :=
        ih.cons rfl
      exact hlink.cons rfl

theorem spells_tower (m k : Nat) :
    Spells (towerText '-' '*' 'x' m k) (towerText .minus .star (.identifier "x") m k) := by
  induction m with
  | zero => exact spells_towerLinks k
  | succ m ih => exact ih.cons rfl

theorem lexemes_of_tower (m k : Nat) :
    ∃ lexemes, Lexeme.ofSource (String.ofList (towerText '-' '*' 'x' m k)) = .ok lexemes ∧
      Derives negated .expression (max m k + 1) (lexemes.map Lexeme.token) (tower m k) := by
  obtain ⟨lexemes, hscan, htokens⟩ := spells_tower m k 0
  refine ⟨lexemes, ?_, htokens ▸ derives_tower_expression m k⟩
  rw [Lexeme.ofSource, String.toList_ofList, hscan]

/-- **The text of a tower is read as the tower** if neither its signs nor its links alone
are too many, but in the tree they add up. -/
theorem parse_tower {m k : Nat} (h : max m k < maxDepth) :
    parse (String.ofList (towerText '-' '*' 'x' m k)) = .ok (tower m k) ∧
      (tower m k).depth = m + k + 1 := by
  obtain ⟨lexemes, hlexemes, hderives⟩ := lexemes_of_tower m k
  refine ⟨?_, by rw [depth_eq_height, height_tower]⟩
  rw [parse_of_derives hlexemes hderives, if_pos (Nat.succ_le_of_lt h)]

/-! ## The two limits -/

/-- **When a text is accepted whose tree is deeper than the limit**: exactly if it nests
within the limit, whatever the height of the tree; it is below three times the square of the
limit.  Of a text and its tree as conditions of a rule, the one is refused for its nesting
and the other for its depth. -/
theorem text_deeper_iff (source : String) (e : Expression) :
    (parse source = .ok e ∧ maxDepth < e.depth ↔
      ∃ lexemes n, Lexeme.ofSource source = .ok lexemes ∧
        Derives negated .expression n (lexemes.map Lexeme.token) e ∧
        n ≤ maxDepth ∧ maxDepth < e.depth) ∧
    (parse source = .ok e → e.depth < 3 * (maxDepth * maxDepth)) ∧
    ∀ (rule : Rule) (lexemes : List Lexeme) (n : Nat), Lexeme.ofSource source = .ok lexemes →
      Derives negated .expression n (lexemes.map Lexeme.token) e →
      (Rule.condition { rule with expression := some source, expressionTree := none } =
          .error .tooDeep ↔ maxDepth < n) ∧
      (Rule.condition { rule with expression := none, expressionTree := some e } =
          .error .tooDeep ↔ maxDepth < e.depth) := by
  refine ⟨⟨?_, ?_⟩, ?_, ?_⟩
  · rintro ⟨hparse, hdepth⟩
    obtain ⟨lexemes, n, hlexemes, hderives, hn⟩ := derives_of_parse hparse
    exact ⟨lexemes, n, hlexemes, hderives, hn, hdepth⟩
  · rintro ⟨lexemes, n, hlexemes, hderives, hn, hdepth⟩
    refine ⟨?_, hdepth⟩
    rw [parse_of_derives hlexemes hderives, if_pos hn]
  · intro hparse
    obtain ⟨lexemes, n, -, hderives, hn⟩ := derives_of_parse hparse
    exact depth_lt_of_derives hderives hn
  · intro rule lexemes n hlexemes hderives
    constructor
    · rw [condition_of_derives hlexemes hderives]
      by_cases hn : n ≤ maxDepth
      · rw [if_pos hn]
        exact ⟨nofun, fun h => absurd hn (Nat.not_le.mpr h)⟩
      · rw [if_neg hn]
        exact ⟨fun _ => Nat.not_le.mp hn, fun _ => rfl⟩
    · show (if maxDepth < e.depth then Except.error Fault.tooDeep else .ok (some e)) = _ ↔ _
      by_cases hdepth : maxDepth < e.depth
      · rw [if_pos hdepth]
        exact ⟨fun _ => hdepth, fun _ => rfl⟩
      · rw [if_neg hdepth]
        exact ⟨nofun, fun h => absurd h hdepth⟩

/-- Fifty minus signs and fifty links. -/
theorem tower_read_and_refused :
    let source := String.ofList (towerText '-' '*' 'x' 50 50)
    let rule := Rule.unconditional "e" "g" []
    (parse source = .ok (tower 50 50) ∧ maxDepth < (tower 50 50).depth) ∧
      (tower 50 50).depth < 3 * (maxDepth * maxDepth) ∧
      Rule.condition { rule with expression := some source, expressionTree := none } ≠
        .error .tooDeep ∧
      Rule.condition { rule with expression := none, expressionTree := some (tower 50 50) } =
        .error .tooDeep := by
  intro source rule
  obtain ⟨lexemes, hlexemes, hderives⟩ := lexemes_of_tower 50 50
  have hdepth : maxDepth < (tower 50 50).depth := by
    rw [depth_eq_height, height_tower]
    decide
  obtain ⟨haccepted, hbound, hconditions⟩ := text_deeper_iff source (tower 50 50)
  have hread := haccepted.mpr ⟨lexemes, _, hlexemes, hderives, by decide, hdepth⟩
  obtain ⟨htext, htree⟩ := hconditions rule lexemes _ hlexemes hderives
  exact ⟨hread, hbound hread.1, mt htext.mp (by decide), htree.mpr hdepth⟩

end Placement.Expression
