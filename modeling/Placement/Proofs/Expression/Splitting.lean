import Placement.Expression.Lexeme
import Placement.Proofs.Decimal.Spelling
/-! # Tokens at the head of a text

A text is split from left to right, and what is read of the rest does not depend on what has
been read before.  So **a text that starts with a word, a number, a quoted text or a symbol is
that token ahead of what the rest is split into**, if the token ends where the rest starts.

Where a token stands in the source plays no part in this: `Token.ofText` leaves positions out.
-/
namespace Placement

namespace Lexeme
variable {c : Char} {rest after : List Char} {t : Token} {fault : LexicalFault} {position : Nat}

/-- Tokens, or what is wrong, without their positions. -/
def unplaced : Except (LexicalFault × Nat) (List Lexeme) → Except LexicalFault (List Token)
  | .ok lexemes => .ok (lexemes.map Lexeme.token)
  | .error (fault, _) => .error fault

theorem scan_blank (h : Token.isBlank c = true) :
    scan position (c :: rest) = scan (position + c.utf8Size) rest := by
  rw [scan, if_pos h]

theorem unplaced_scan_error (hblank : Token.isBlank c = false)
    (hread : Token.read (c :: rest) = .error fault) :
    unplaced (scan position (c :: rest)) = .error fault := by
  rw [scan, hblank, if_neg Bool.false_ne_true]
  split
  · rename_i hfault
    rw [hread] at hfault
    cases hfault
    rfl
  · rename_i hfound
    rw [hread] at hfound
    cases hfound

theorem unplaced_scan_ok (position : Nat) (hblank : Token.isBlank c = false)
    (hread : Token.read (c :: rest) = .ok (t, after)) :
    ∃ stop, unplaced (scan position (c :: rest)) =
      (unplaced (scan stop after)).map fun ts => t :: ts := by
  rw [scan, hblank, if_neg Bool.false_ne_true]
  split
  · rename_i hfault
    rw [hread] at hfault
    cases hfault
  · rename_i hfound
    rw [hread] at hfound
    cases hfound
    refine ⟨position + bytes ((c :: rest).take ((c :: rest).length - after.length)), ?_⟩
    dsimp only
    cases scan (position + bytes ((c :: rest).take ((c :: rest).length - after.length))) after with
    | error found => rfl
    | ok lexemes => rfl

end Lexeme

namespace Token
open Lexeme
variable {c : Char} {word digits rest after : List Char} {t : Token} {fault : LexicalFault}

/-! ## The tokens of a text -/

/-- **The tokens of a text**, or what is wrong with the first part of it that is no token. -/
def ofText (text : List Char) : Except LexicalFault (List Token) := unplaced (scan 0 text)

/-- Where a text starts does not matter for its tokens. -/
theorem unplaced_scan (position : Nat) (text : List Char) :
    unplaced (scan position text) = ofText text := by
  rw [ofText]
  generalize 0 = other
  induction hlength : text.length using Nat.strong_induction_on
    generalizing text position other with
  | _ length ih =>
  cases text with
  | nil => rw [scan, scan]
  | cons c rest =>
      cases hblank : isBlank c with
      | true =>
          rw [scan_blank hblank, scan_blank hblank]
          exact ih _ (hlength ▸ Nat.lt_succ_self _) _ _ _ rfl
      | false =>
          cases hread : read (c :: rest) with
          | error fault => rw [unplaced_scan_error hblank hread, unplaced_scan_error hblank hread]
          | ok found =>
              obtain ⟨t, after⟩ := found
              obtain ⟨stop, hstop⟩ := unplaced_scan_ok position hblank hread
              obtain ⟨stop', hstop'⟩ := unplaced_scan_ok other hblank hread
              rw [hstop, hstop', ih _ (hlength ▸ read_shorter hread) _ _ _ rfl]

theorem exists_scan_ok {text : List Char} {ts : List Token} (h : ofText text = .ok ts)
    (position : Nat) :
    ∃ lexemes, scan position text = .ok lexemes ∧ lexemes.map Lexeme.token = ts := by
  rw [← unplaced_scan position] at h
  cases hscan : scan position text with
  | error fault => rw [hscan] at h; cases h
  | ok lexemes => rw [hscan] at h; exact ⟨lexemes, rfl, Except.ok.inj h⟩

theorem exists_scan_error {text : List Char} (h : ofText text = .error fault) :
    ∃ position, scan 0 text = .error (fault, position) := by
  rw [ofText] at h
  cases hscan : scan 0 text with
  | error found => rw [hscan] at h; cases h; exact ⟨found.2, rfl⟩
  | ok lexemes => rw [hscan] at h; cases h

/-- A text starts with these tokens, or with a number that is too large; the rest of it is split
like this. -/
def ahead (tooLarge : Bool) (ts : List Token) (rest : Except LexicalFault (List Token)) :
    Except LexicalFault (List Token) :=
  if tooLarge then .error .integerTooLarge else rest.map fun us => ts ++ us

theorem ahead_ahead (tooLarge tooLarge' : Bool) (ts us : List Token)
    (rest : Except LexicalFault (List Token)) :
    ahead tooLarge ts (ahead tooLarge' us rest) =
      ahead (tooLarge || tooLarge') (ts ++ us) rest := by
  cases tooLarge with
  | true => rfl
  | false =>
      cases tooLarge' with
      | true => rfl
      | false =>
          cases rest with
          | error fault => rfl
          | ok vs => exact congrArg Except.ok (List.append_assoc ts us vs).symm

theorem ofText_nil : ofText [] = .ok [] := by
  rw [ofText, scan]
  rfl

/-- No token starts with a blank. -/
theorem isBlank_of_read {found : Except LexicalFault (Token × List Char)}
    (h : read (c :: rest) = found) (hfound : found ≠ .error .invalidToken) : isBlank c = false := by
  rw [Bool.eq_false_iff]
  intro hblank
  simp only [isBlank, Bool.or_eq_true, decide_eq_true_eq] at hblank
  rcases hblank with (((rfl | rfl) | rfl) | rfl) | rfl <;> exact hfound h.symm

theorem ofText_error (h : read (c :: rest) = .error fault) (hfault : fault ≠ .invalidToken) :
    ofText (c :: rest) = .error fault := by
  have hblank : isBlank c = false := isBlank_of_read h (mt Except.error.inj hfault)
  exact unplaced_scan_error hblank h

theorem ofText_ok (h : read (c :: rest) = .ok (t, after)) :
    ofText (c :: rest) = ahead false [t] (ofText after) := by
  obtain ⟨stop, hstop⟩ := unplaced_scan_ok 0 (isBlank_of_read h nofun) h
  rw [ofText, hstop, unplaced_scan]
  rfl

/-- Blanks between tokens are passed over. -/
theorem ofText_blanks {gap : List Char} (hgap : ∀ c ∈ gap, isBlank c = true) (rest : List Char) :
    ofText (gap ++ rest) = ofText rest := by
  induction gap with
  | nil => rfl
  | cons c gap ih =>
      rw [List.forall_mem_cons] at hgap
      rw [← ih hgap.2, List.cons_append, ofText, scan_blank hgap.1, unplaced_scan]

/-! ## One token -/

/-- No word and no number goes on here. -/
def Ends (rest : List Char) : Prop := ∀ c ∈ rest.head?, continuesName c = false ∧ c ≠ '.'

theorem stops_of_ends (h : Ends rest) : Numeral.Stops rest := by
  intro c hc
  have hname := (h c hc).1
  simp only [continuesName, Char.isAlphanum, Bool.or_eq_false_iff] at hname
  exact hname.1.2

theorem read_word (hstart : startsName c = true) (hword : ∀ d ∈ word, continuesName d = true)
    (hrest : Ends rest) :
    read (c :: word ++ rest) = .ok (ofWord (String.ofList (c :: word)), rest) := by
  obtain ⟨htake, hdrop⟩ := span_append hword fun d hd => (hrest d hd).1
  show read (c :: (word ++ rest)) = _
  rw [read, if_pos hstart, htake, hdrop]

theorem ofText_word (hstart : startsName c = true) (hword : ∀ d ∈ word, continuesName d = true)
    (hrest : Ends rest) :
    ofText (c :: word ++ rest) =
      ahead false [ofWord (String.ofList (c :: word))] (ofText rest) :=
  ofText_ok (read_word hstart hword hrest)

theorem startsName_of_isDigit (h : c.isDigit = true) : startsName c = false := by
  have hto : c.toNat ≤ '9'.toNat := (Char.isDigit_iff_toNat.mp h).2
  rw [Bool.eq_false_iff]
  intro hname
  rw [startsName, Bool.or_eq_true, decide_eq_true_eq] at hname
  rcases hname with hletter | rfl
  · have hclass : (decide (c.val ≥ 'A'.val ∧ c.val ≤ 'Z'.val) ||
        (decide (c.val ≥ 'a'.val) && decide (c.val ≤ 'z'.val))) = true := hletter
    simp only [Bool.or_eq_true, Bool.and_eq_true, decide_eq_true_eq] at hclass
    rcases hclass with ⟨hfrom, -⟩ | ⟨hfrom, -⟩
    · exact absurd (Nat.le_trans hfrom hto) (by decide)
    · exact absurd (Nat.le_trans hfrom hto) (by decide)
  · exact absurd h (by decide)

/-- Digits are one number, even if they spell one that is too large. -/
theorem read_digits (hdigits : Numeral.AllDigits digits) (hne : digits ≠ []) (hrest : Ends rest) :
    read (digits ++ rest) = (ofDigits digits).map fun t => (t, rest) := by
  have hspan : Numeral.spanDigits (digits ++ rest) = (digits, rest) :=
    Numeral.spanDigits_append hdigits (stops_of_ends hrest)
  cases digits with
  | nil => exact absurd rfl hne
  | cons d digits =>
      have hd : d.isDigit = true := hdigits d List.mem_cons_self
      have hname : startsName d = false := startsName_of_isDigit hd
      rw [List.cons_append] at hspan ⊢
      rw [read, hname, if_neg Bool.false_ne_true, if_pos hd, readNumber, hspan]
      dsimp only
      split
      · exact absurd rfl (hrest '.' rfl).2
      · rfl

theorem ofText_digits (n : Nat) (hrest : Ends rest) :
    ofText (Nat.toDigits 10 n ++ rest) =
      ahead (decide (0x8000000000000000 ≤ n)) [.int (Int64.ofNat n)] (ofText rest) := by
  have hread : read (Nat.toDigits 10 n ++ rest) =
      (ofDigits (Nat.toDigits 10 n)).map fun t => (t, rest) :=
    read_digits (Numeral.allDigits_toDigits n) Nat.toDigits_ne_nil hrest
  rw [ofDigits, Numeral.ofDigits_toDigits] at hread
  cases hdigits : Nat.toDigits 10 n with
  | nil => exact absurd hdigits Nat.toDigits_ne_nil
  | cons d digits =>
      rw [hdigits, List.cons_append] at hread
      rw [List.cons_append]
      by_cases hn : n < 0x8000000000000000
      · rw [decide_eq_false (Nat.not_le.mpr hn)]
        rw [if_pos hn] at hread
        exact ofText_ok hread
      · rw [decide_eq_true (Nat.not_lt.mp hn)]
        rw [if_neg hn] at hread
        exact ofText_error hread nofun

/-! ## Quoted texts -/

/-- A text as it stands between quotes: **a backslash before each backslash and each quote**. -/
def escape (quote : Char) (text : List Char) : List Char :=
  text.flatMap fun c => if c = '\\' ∨ c = quote then ['\\', c] else [c]

variable {quote : Char}

theorem spanQuoted_escape (hquote : quote = '"' ∨ quote = '\'') (text rest : List Char) :
    spanQuoted quote (escape quote text ++ quote :: rest) = some (escape quote text, rest) := by
  have hslash : '\\' ≠ quote := by rcases hquote with rfl | rfl <;> decide
  induction text with
  | nil =>
      show spanQuoted quote (quote :: rest) = _
      rw [spanQuoted.eq_def]
      exact if_pos rfl
  | cons c text ih =>
      rw [escape, List.flatMap_cons]
      by_cases hc : c = '\\' ∨ c = quote
      · have hfeed : c ≠ '\n' := by
          rintro rfl
          rcases hquote with rfl | rfl <;> exact absurd hc (by decide)
        rw [if_pos hc]
        show spanQuoted quote ('\\' :: c :: (escape quote text ++ quote :: rest)) = _
        rw [spanQuoted.eq_def]
        dsimp only
        rw [if_neg hslash, if_pos rfl, if_neg hfeed, ih]
        rfl
      · rw [if_neg hc]
        show spanQuoted quote (c :: (escape quote text ++ quote :: rest)) = _
        rw [spanQuoted.eq_def]
        dsimp only
        rw [if_neg (not_or.mp hc).2, if_neg (not_or.mp hc).1, ih]
        rfl

theorem unquoted_cons (hc : c ≠ '\\') (text : List Char) :
    unquoted (c :: text) = (unquoted text).map fun more => c :: more := by
  rw [unquoted, if_neg hc] <;> intros <;> contradiction

theorem unquoted_escaped (hc : c = '\\' ∨ c = '"' ∨ c = '\'') (text : List Char) :
    unquoted ('\\' :: c :: text) = (unquoted text).map fun more => c :: more := by
  rcases hc with rfl | rfl | rfl <;> rfl

theorem unquoted_escape (hquote : quote = '"' ∨ quote = '\'') (text : List Char) :
    unquoted (escape quote text) = some text := by
  induction text with
  | nil => rfl
  | cons c text ih =>
      rw [escape, List.flatMap_cons]
      by_cases hc : c = '\\' ∨ c = quote
      · have hescape : c = '\\' ∨ c = '"' ∨ c = '\'' :=
          hc.imp_right fun (h : c = quote) => h ▸ hquote
        rw [if_pos hc]
        show unquoted ('\\' :: c :: escape quote text) = _
        rw [unquoted_escaped hescape, ih]
        rfl
      · rw [if_neg hc]
        show unquoted (c :: escape quote text) = _
        rw [unquoted_cons (not_or.mp hc).1, ih]
        rfl

/-- A text in quotes. -/
def quoted (quote : Char) (s : String) : List Char :=
  quote :: (escape quote s.toList ++ [quote])

theorem read_quoted (hquote : quote = '"' ∨ quote = '\'') (s : String) (rest : List Char) :
    read (quoted quote s ++ rest) = .ok (.string s, rest) := by
  have hread : readQuoted quote (escape quote s.toList ++ quote :: rest) =
      .ok (.string s, rest) := by
    rw [readQuoted, spanQuoted_escape hquote]
    dsimp only
    rw [unquoted_escape hquote]
    exact congrArg (fun text => Except.ok (string text, rest)) String.ofList_toList
  have htext : quoted quote s ++ rest = quote :: (escape quote s.toList ++ quote :: rest) := by
    rw [quoted, List.cons_append, List.append_assoc, List.singleton_append]
  rw [htext]
  rcases hquote with rfl | rfl <;> exact hread

theorem ofText_quoted (hquote : quote = '"' ∨ quote = '\'') (s : String) (rest : List Char) :
    ofText (quoted quote s ++ rest) = ahead false [.string s] (ofText rest) :=
  ofText_ok (read_quoted hquote s rest)

end Token
end Placement
