import Placement.Proofs.Expression.Splitting
/-! # Source text as tokens with blanks between them

A token may be spelled in more than one way: a text has two quotes to stand in, a number may
start with zeros.  **However tokens are spelled, and whatever blanks keep them apart, these
tokens are what the text is split into** (`Lexeme.ofSource_written`), and each is placed at
the bytes of the text that its spelling takes.
-/
namespace Placement

namespace Token
variable {t : Token} {text rest : List Char}

/-! ## Spellings -/

/-- The spelling of an operator or a bracket. -/
def symbolText? : Token → Option String
  | .less => some "<"
  | .lessEqual => some "<="
  | .greater => some ">"
  | .greaterEqual => some ">="
  | .equal => some "=="
  | .notEqual => some "!="
  | .not => some "!"
  | .and => some "&&"
  | .or => some "||"
  | .plus => some "+"
  | .minus => some "-"
  | .star => some "*"
  | .slash => some "/"
  | .percent => some "%"
  | .question => some "?"
  | .colon => some ":"
  | .dot => some "."
  | .comma => some ","
  | .openParen => some "("
  | .closeParen => some ")"
  | .openBracket => some "["
  | .closeBracket => some "]"
  | .openBrace => some "\x7b"
  | .closeBrace => some "\x7d"
  | _ => none

/-- The words that are no names, and the tokens that they are. -/
def keywords : List (String × Token) :=
  [("in", .within), ("null", .null), ("true", .bool true), ("false", .bool false)]

/-- **The ways to spell a token.**  Quotes and backslashes inside a text are escaped, all other
characters stand as they are. -/
inductive Spelled : Token → List Char → Prop
  | symbol {t s} : symbolText? t = some s → Spelled t s.toList
  | keyword {s t} : (s, t) ∈ keywords → Spelled t s.toList
  | int {n digits} : Numeral.AllDigits digits → digits ≠ [] →
      Int64.toInt n = Numeral.ofDigits digits → Spelled (.int n) digits
  | float {x whole fraction} : Numeral.AllDigits whole → whole ≠ [] →
      Numeral.AllDigits fraction → fraction ≠ [] →
      Numeral.readFloat? (String.ofList (whole ++ '.' :: fraction)) = some x →
      Spelled (.float x) (whole ++ '.' :: fraction)
  | string {s quote} : quote = '"' ∨ quote = '\'' → Spelled (.string s) (quoted quote s)
  | identifier {c word} : startsName c = true → (∀ d ∈ word, continuesName d = true) →
      (∀ t, (String.ofList (c :: word), t) ∉ keywords) →
      Spelled (.identifier (String.ofList (c :: word))) (c :: word)

/-! ## A spelled token at the head of a text -/

theorem cases_of_isBlank {c : Char} (h : isBlank c = true) :
    c = ' ' ∨ c = '\t' ∨ c = '\r' ∨ c = '\n' ∨ c = '\x0c' := by
  simpa [isBlank, or_assoc] using h

/-- The text ends here, or a blank follows. -/
def Apart (rest : List Char) : Prop := ∀ c ∈ rest.head?, isBlank c = true

theorem ends_of_apart (h : Apart rest) : Ends rest := by
  intro c hc
  rcases cases_of_isBlank (h c hc) with rfl | rfl | rfl | rfl | rfl <;> decide

theorem read_symbol {s : String} (h : symbolText? t = some s) (hrest : Apart rest) :
    read (s.toList ++ rest) = .ok (t, rest) := by
  -- what follows matters only to the operators that others start with
  cases rest with
  | nil => cases t <;> cases h <;> rfl
  | cons c rest =>
      rcases cases_of_isBlank (hrest c rfl) with rfl | rfl | rfl | rfl | rfl <;>
        cases t <;> cases h <;> rfl

theorem ofWord_keyword {s : String} (h : (s, t) ∈ keywords) : ofWord s = t := by
  simp only [keywords, List.mem_cons, Prod.mk.injEq, List.not_mem_nil, or_false] at h
  rcases h with ⟨rfl, rfl⟩ | ⟨rfl, rfl⟩ | ⟨rfl, rfl⟩ | ⟨rfl, rfl⟩ <;> rfl

theorem ofWord_of_not_keyword {s : String} (h : ∀ t, (s, t) ∉ keywords) :
    ofWord s = .identifier s := by
  simp only [keywords, List.mem_cons, Prod.mk.injEq, List.not_mem_nil, or_false, not_or,
    not_and] at h
  have hin : s ≠ "in" := fun hs => (h .within).1 hs rfl
  have hnull : s ≠ "null" := fun hs => (h .null).2.1 hs rfl
  have htrue : s ≠ "true" := fun hs => (h (.bool true)).2.2.1 hs rfl
  have hfalse : s ≠ "false" := fun hs => (h (.bool false)).2.2.2 hs rfl
  rw [ofWord, if_neg hin, if_neg hnull, if_neg htrue, if_neg hfalse]

theorem read_keyword {s : String} (h : (s, t) ∈ keywords) (hrest : Ends rest) :
    read (s.toList ++ rest) = .ok (t, rest) := by
  obtain ⟨c, word, hs, hstart, hword⟩ : ∃ c word, s.toList = c :: word ∧ startsName c = true ∧
      ∀ d ∈ word, continuesName d = true := by
    simp only [keywords, List.mem_cons, Prod.mk.injEq, List.not_mem_nil, or_false] at h
    rcases h with ⟨rfl, -⟩ | ⟨rfl, -⟩ | ⟨rfl, -⟩ | ⟨rfl, -⟩ <;>
      exact ⟨_, _, rfl, rfl, List.all_eq_true.mp rfl⟩
  have hofList : String.ofList (c :: word) = s := by rw [← hs, String.ofList_toList]
  rw [hs, read_word hstart hword hrest, hofList, ofWord_keyword h]

theorem read_int {n : Int64} {digits : List Char} (hdigits : Numeral.AllDigits digits)
    (hne : digits ≠ []) (hn : n.toInt = Numeral.ofDigits digits) (hrest : Ends rest) :
    read (digits ++ rest) = .ok (.int n, rest) := by
  have hsize : Numeral.ofDigits digits < 0x8000000000000000 := by
    have hupper := n.toInt_lt
    omega
  have hvalue : Int64.ofNat (Numeral.ofDigits digits) = n := by
    rw [← Int64.ofInt_eq_ofNat, ← hn, Int64.ofInt_toInt]
  rw [read_digits hdigits hne hrest, ofDigits, if_pos hsize, hvalue]
  rfl

/-- A text of digits on both sides of a point is read as a double by its two parts. -/
theorem readFloat?_point {whole fraction : List Char} (hwhole : Numeral.AllDigits whole)
    (hne : whole ≠ []) (hfraction : Numeral.AllDigits fraction) :
    Numeral.readFloat? (String.ofList (whole ++ '.' :: fraction)) =
      some (Numeral.toFloat whole fraction 0) := by
  have hspan : Numeral.spanDigits (whole ++ '.' :: fraction) = (whole, '.' :: fraction) :=
    Numeral.spanDigits_append hwhole (by rintro c ⟨⟩; decide)
  have hsign : Numeral.sign (whole ++ '.' :: fraction) = (false, whole ++ '.' :: fraction) := by
    cases whole with
    | nil => exact absurd rfl hne
    | cons d digits =>
        unfold Numeral.sign
        split
        · rename_i h
          cases h
          exact absurd (hwhole '-' List.mem_cons_self) (by decide)
        · rename_i h
          cases h
          exact absurd (hwhole '+' List.mem_cons_self) (by decide)
        · rfl
  have hempty : whole.isEmpty = false := List.isEmpty_eq_false_iff.mpr hne
  simp only [Numeral.readFloat?, String.toList_ofList, hsign, hspan,
    Numeral.spanDigits_digits hfraction, hempty, Bool.false_and, Bool.false_eq_true, if_false,
    Option.map_some]

/-- Digits on both sides of a point are read as the double that the whole text is read as. -/
theorem read_float {x : Float} {whole fraction : List Char} (hwhole : Numeral.AllDigits whole)
    (hne : whole ≠ []) (hfraction : Numeral.AllDigits fraction) (hne' : fraction ≠ [])
    (hx : Numeral.readFloat? (String.ofList (whole ++ '.' :: fraction)) = some x)
    (hrest : Apart rest) : read (whole ++ '.' :: fraction ++ rest) = .ok (.float x, rest) := by
  rw [readFloat?_point hwhole hne hfraction, Option.some_inj] at hx
  have hspan : Numeral.spanDigits (whole ++ '.' :: (fraction ++ rest)) =
      (whole, '.' :: (fraction ++ rest)) :=
    Numeral.spanDigits_append hwhole (by rintro c ⟨⟩; decide)
  have hspan' : Numeral.spanDigits (fraction ++ rest) = (fraction, rest) :=
    Numeral.spanDigits_append hfraction (stops_of_ends (ends_of_apart hrest))
  have hempty : fraction.isEmpty = false := List.isEmpty_eq_false_iff.mpr hne'
  have hexponent : Numeral.exponent? rest = none := by
    cases rest with
    | nil => rfl
    | cons c rest =>
        rcases cases_of_isBlank (hrest c rfl) with rfl | rfl | rfl | rfl | rfl <;> rfl
  cases whole with
  | nil => exact absurd rfl hne
  | cons d digits =>
      have hd : d.isDigit = true := hwhole d List.mem_cons_self
      have hname : startsName d = false := startsName_of_isDigit hd
      simp only [List.cons_append, List.append_assoc] at hspan ⊢
      rw [read, hname, if_neg Bool.false_ne_true, if_pos hd, readNumber, hspan]
      simp only [hspan', hempty, Bool.false_eq_true, if_false, hexponent, hx]

/-- **A spelled token is read back** where the text ends or a blank follows. -/
theorem read_spelled (h : Spelled t text) (hrest : Apart rest) :
    read (text ++ rest) = .ok (t, rest) := by
  have hends := ends_of_apart hrest
  cases h with
  | symbol hs => exact read_symbol hs hrest
  | keyword hs => exact read_keyword hs hends
  | int hdigits hne hn => exact read_int hdigits hne hn hends
  | float hwhole hne hfraction hne' hx =>
      exact read_float hwhole hne hfraction hne' hx hrest
  | string hquote => exact read_quoted hquote _ rest
  | identifier hstart hword hname =>
      rw [read_word hstart hword hends, ofWord_of_not_keyword hname]

end Token

/-! ## A whole text -/

/-- A token as it stands in a source text, with the blanks behind it. -/
structure Written where
  token : Token
  text : List Char
  gap : List Char
  isSpelled : Token.Spelled token text
  isBlank : ∀ c ∈ gap, Token.isBlank c = true

namespace Written

/-- The text of some tokens. -/
def source (ws : List Written) : List Char := ws.flatMap fun w => w.text ++ w.gap

/-- Those tokens with the bytes they take, behind the text `before`. -/
def lexemes (before : List Char) : List Written → List Lexeme
  | [] => []
  | w :: rest =>
      ⟨w.token, (String.ofList before).utf8ByteSize,
        (String.ofList (before ++ w.text)).utf8ByteSize⟩ ::
          lexemes (before ++ w.text ++ w.gap) rest

/-- Blanks stand between the tokens. -/
def Separated (ws : List Written) : Prop := ∀ w ∈ ws.dropLast, w.gap ≠ []

theorem Separated.tail {w : Written} {ws : List Written} (h : Separated (w :: ws)) :
    Separated ws := by
  cases ws with
  | nil => nofun
  | cons v rest => exact fun u hu => h u (List.mem_cons_of_mem w hu)

theorem Separated.apart {w : Written} {ws : List Written} (h : Separated (w :: ws)) :
    Token.Apart (w.gap ++ source ws) := by
  intro c hc
  cases hgap : w.gap with
  | cons d gap =>
      rw [hgap] at hc
      cases hc
      exact w.isBlank c (hgap ▸ List.mem_cons_self)
  | nil =>
      cases ws with
      | nil =>
          rw [hgap] at hc
          cases hc
      | cons v rest => exact absurd hgap (h w List.mem_cons_self)

end Written

namespace Lexeme
variable {position : Nat} {text rest : List Char} {t : Token} {lexemes : List Lexeme}

theorem bytes_eq_utf8ByteSize (text : List Char) :
    bytes text = (String.ofList text).utf8ByteSize := by
  induction text with
  | nil => rfl
  | cons c text ih =>
      rw [String.ofList_cons, String.utf8ByteSize_append, ← ih]
      simp [bytes]

theorem bytes_append (text rest : List Char) : bytes (text ++ rest) = bytes text + bytes rest := by
  simp only [bytes_eq_utf8ByteSize, String.ofList_append, String.utf8ByteSize_append]

theorem scan_blanks {gap : List Char} (hgap : ∀ c ∈ gap, Token.isBlank c = true) :
    scan position (gap ++ rest) = scan (position + bytes gap) rest := by
  induction gap generalizing position with
  | nil => rfl
  | cons c gap ih =>
      rw [List.forall_mem_cons] at hgap
      rw [List.cons_append, scan_blank hgap.1, ih hgap.2, Nat.add_assoc]
      rfl

/-- A token takes the bytes up to the rest of the text. -/
theorem scan_token (hread : Token.read (text ++ rest) = .ok (t, rest))
    (hscan : scan (position + bytes text) rest = .ok lexemes) :
    scan position (text ++ rest) = .ok (⟨t, position, position + bytes text⟩ :: lexemes) := by
  cases text with
  | nil => exact absurd (Token.read_shorter hread) (Nat.lt_irrefl _)
  | cons c text =>
      have hblank : Token.isBlank c = false := Token.isBlank_of_read hread nofun
      have htaken : (c :: (text ++ rest)).take ((c :: (text ++ rest)).length - rest.length) =
          c :: text := by
        rw [← List.cons_append, List.length_append, Nat.add_sub_cancel, List.take_left]
      rw [List.cons_append] at hread ⊢
      rw [scan, hblank, if_neg Bool.false_ne_true]
      split
      · rename_i hfault
        rw [hread] at hfault
        cases hfault
      · rename_i hfound
        rw [hread] at hfound
        cases hfound
        dsimp only
        rw [htaken, hscan]

theorem scan_source {ws : List Written} (h : Written.Separated ws) (before : List Char) :
    scan (bytes before) (Written.source ws) = .ok (Written.lexemes before ws) := by
  induction ws generalizing before with
  | nil =>
      show scan _ [] = .ok []
      rw [scan]
  | cons w ws ih =>
      have hsource : Written.source (w :: ws) = w.text ++ (w.gap ++ Written.source ws) := by
        rw [Written.source, List.flatMap_cons, List.append_assoc]
        rfl
      have hrest : scan (bytes before + bytes w.text) (w.gap ++ Written.source ws) =
          .ok (Written.lexemes (before ++ w.text ++ w.gap) ws) := by
        rw [scan_blanks w.isBlank, ← bytes_append, ← bytes_append]
        exact ih h.tail _
      rw [hsource, scan_token (Token.read_spelled w.isSpelled h.apart) hrest, ← bytes_append,
        bytes_eq_utf8ByteSize, bytes_eq_utf8ByteSize]
      rfl

theorem extract_middle (before text after : List Char) :
    (String.ofList (before ++ (text ++ after))).toByteArray.extract
        (String.ofList before).utf8ByteSize (String.ofList (before ++ text)).utf8ByteSize =
      (String.ofList text).toByteArray := by
  have hskip := ByteArray.extract_append_size_add (a := (String.ofList before).toByteArray)
    (b := (String.ofList (text ++ after)).toByteArray) (i := 0)
    (j := (String.ofList text).toByteArray.size)
  rw [Nat.add_zero, ← String.toByteArray_append, ← String.ofList_append, String.size_toByteArray,
    String.size_toByteArray, ← String.utf8ByteSize_append, ← String.ofList_append] at hskip
  rw [hskip, String.ofList_append, String.toByteArray_append]
  exact ByteArray.extract_append_eq_left String.size_toByteArray.symm

/-- The bytes of a lexeme are those of its spelling. -/
theorem extract_lexemes (before : List Char) (ws : List Written) :
    List.Forall₂ (fun w lexeme => lexeme.token = w.token ∧
      (String.ofList (before ++ Written.source ws)).toByteArray.extract lexeme.start lexeme.stop =
        (String.ofList w.text).toByteArray) ws (Written.lexemes before ws) := by
  induction ws generalizing before with
  | nil => exact .nil
  | cons w ws ih =>
      have hsource : before ++ Written.source (w :: ws) =
          before ++ w.text ++ w.gap ++ Written.source ws := by
        simp [Written.source]
      refine .cons ⟨rfl, ?_⟩ (hsource ▸ ih (before ++ w.text ++ w.gap))
      rw [hsource, List.append_assoc, List.append_assoc]
      exact extract_middle before w.text (w.gap ++ Written.source ws)

/-- **Splitting a text undoes writing it**: the tokens come back in their order, each with the
bytes of the text that it was written in. -/
theorem ofSource_written {lead : List Char} {ws : List Written}
    (hlead : ∀ c ∈ lead, Token.isBlank c = true) (hgaps : Written.Separated ws) :
    let source := String.ofList (lead ++ Written.source ws)
    ofSource source = .ok (Written.lexemes lead ws) ∧
      List.Forall₂ (fun w lexeme => lexeme.token = w.token ∧
        source.toByteArray.extract lexeme.start lexeme.stop =
          (String.ofList w.text).toByteArray) ws (Written.lexemes lead ws) := by
  intro source
  refine ⟨?_, extract_lexemes lead ws⟩
  rw [ofSource, String.toList_ofList, scan_blanks hlead, Nat.zero_add]
  exact scan_source hgaps lead

/-- A keyword at the head of a name, zeros in front of a number, an operator that others start
with, and a text with a quote, a line feed and a character of two bytes in it. -/
theorem ofSource_nullable :
    ofSource " nullable\t>  007\n1.50 'it\\'s\né' " = .ok
      [⟨.identifier "nullable", 1, 9⟩, ⟨.greater, 10, 11⟩, ⟨.int 7, 13, 16⟩,
        ⟨.float 1.5, 17, 21⟩, ⟨.string "it's\né", 22, 32⟩] := by
  have hname : Token.Spelled (.identifier "nullable") "nullable".toList :=
    @Token.Spelled.identifier 'n' "ullable".toList rfl (List.all_eq_true.mp rfl)
      (by simp [Token.keywords])
  have hint : Token.Spelled (.int 7) "007".toList :=
    .int (List.all_eq_true.mp rfl) nofun (by decide)
  have hfloat : Token.Spelled (.float 1.5) "1.50".toList := by
    have hwhole : Numeral.AllDigits ['1'] := List.all_eq_true.mp rfl
    have hfraction : Numeral.AllDigits ['5', '0'] := List.all_eq_true.mp rfl
    exact .float hwhole nofun hfraction nofun (by decide +kernel)
  let ws : List Written :=
    [⟨.identifier "nullable", _, ['\t'], hname, List.all_eq_true.mp rfl⟩,
      ⟨.greater, _, [' ', ' '], .symbol rfl, List.all_eq_true.mp rfl⟩,
      ⟨.int 7, _, ['\n'], hint, List.all_eq_true.mp rfl⟩,
      ⟨.float 1.5, _, [' '], hfloat, List.all_eq_true.mp rfl⟩,
      ⟨.string "it's\né", _, [' '], .string (.inr rfl), List.all_eq_true.mp rfl⟩]
  have hlead : ∀ c ∈ [' '], Token.isBlank c = true := List.all_eq_true.mp rfl
  have hgaps : Written.Separated ws := by simp [ws, Written.Separated]
  have hsource : String.ofList ([' '] ++ Written.source ws) =
      " nullable\t>  007\n1.50 'it\\'s\né' " := rfl
  obtain ⟨hsplit, -⟩ := ofSource_written hlead hgaps
  rw [hsource] at hsplit
  rw [hsplit]
  simp only [ws, Written.lexemes]
  decide +kernel

end Lexeme
end Placement
