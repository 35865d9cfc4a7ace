import Placement.Expression.Token
/-! # Splitting source text into tokens

The whole text is split before any of it is parsed, so a fault anywhere in the
text is found before the tokens are looked at.  Every reader takes at least one
character (`Token.read_shorter`), which is why splitting ends.
-/
namespace Placement

namespace Token

theorem spanDigits_length (text : List Char) :
    (Numeral.spanDigits text).2.length ≤ text.length :=
  (List.dropWhile_suffix _).length_le

theorem sign_length (text : List Char) : (Numeral.sign text).2.length ≤ text.length := by
  unfold Numeral.sign
  split <;> simp

theorem exponent?_length {text rest : List Char} {e : Int}
    (h : Numeral.exponent? text = some (e, rest)) : rest.length < text.length := by
  match text with
  | [] => simp [Numeral.exponent?] at h
  | c :: after =>
      simp only [Numeral.exponent?] at h
      split at h
      · split at h
        · cases h
        · simp only [Option.some.injEq, Prod.mk.injEq] at h
          have h₁ := spanDigits_length (Numeral.sign after).2
          have h₂ := sign_length after
          rw [← h.2]
          simp only [List.length_cons]
          omega
      · cases h

theorem spanDigits_cons_length {c : Char} (hc : c.isDigit = true) (rest : List Char) :
    (Numeral.spanDigits (c :: rest)).2.length < (c :: rest).length := by
  simp only [Numeral.spanDigits, List.dropWhile_cons, hc, if_true, List.length_cons]
  have := (List.dropWhile_suffix Char.isDigit (l := rest)).length_le
  omega

theorem symbol?_shorter {text rest : List Char} {t : Token} (h : symbol? text = some (t, rest)) :
    rest.length < text.length := by
  unfold symbol? at h
  split at h <;> first
    | (simp only [Option.some.injEq, Prod.mk.injEq] at h
       obtain ⟨_, rfl⟩ := h
       simp only [List.length_cons]
       omega)
    | cases h

theorem spanQuoted_shorter {quote : Char} : ∀ {text body rest : List Char},
    spanQuoted quote text = some (body, rest) → rest.length < text.length
  | [], _, _, h => by simp [spanQuoted] at h
  | c :: text, body, rest, h => by
      rw [spanQuoted.eq_def] at h
      simp only at h
      split at h
      · cases h
        simp
      · split at h
        · split at h
          · cases h
          · split at h
            · cases h
            · obtain ⟨⟨b, r⟩, hb, heq⟩ := Option.map_eq_some_iff.mp h
              have := spanQuoted_shorter hb
              cases heq
              simp only [List.length_cons]
              omega
        · obtain ⟨⟨b, r⟩, hb, heq⟩ := Option.map_eq_some_iff.mp h
          have := spanQuoted_shorter hb
          cases heq
          simp only [List.length_cons]
          omega

theorem readQuoted_shorter {quote : Char} {text rest : List Char} {t : Token}
    (h : readQuoted quote text = .ok (t, rest)) : rest.length < text.length := by
  unfold readQuoted at h
  split at h
  · cases h
  · rename_i hspan
    split at h
    · cases h
      exact spanQuoted_shorter hspan
    · cases h

theorem rest_of_map_ofDigits {digits rest rest' : List Char} {t : Token}
    (h : (ofDigits digits).map (·, rest) = .ok (t, rest')) : rest' = rest := by
  unfold ofDigits at h
  simp only at h
  split at h
  · cases h
    rfl
  · cases h

theorem readNumber_shorter {c : Char} (hc : c.isDigit = true) {text rest : List Char} {t : Token}
    (h : readNumber (c :: text) = .ok (t, rest)) : rest.length < (c :: text).length := by
  have hspan := spanDigits_cons_length hc text
  rw [readNumber.eq_def] at h
  generalize hdigits : Numeral.spanDigits (c :: text) = parts at h hspan
  obtain ⟨whole, after⟩ := parts
  simp only at h hspan
  split at h
  · rename_i more
    have hfraction := spanDigits_length more
    simp only [List.length_cons] at hspan ⊢
    split at h
    · rw [rest_of_map_ofDigits h]
      simpa using hspan
    · split at h
      · rename_i hexp
        have := exponent?_length hexp
        cases h
        omega
      · cases h
        omega
  · rw [rest_of_map_ofDigits h]
    exact hspan

/-- **A token takes at least one character.** -/
theorem read_shorter {text rest : List Char} {t : Token} (h : read text = .ok (t, rest)) :
    rest.length < text.length := by
  unfold read at h
  split at h
  · cases h
  · rename_i c text
    split at h
    · cases h
      have := (List.dropWhile_suffix continuesName (l := text)).length_le
      simp only [List.length_cons]
      omega
    · split at h
      · rename_i hdigit
        exact readNumber_shorter hdigit h
      · split at h
        · have := readQuoted_shorter h
          simp only [List.length_cons]
          omega
        · split at h
          · rename_i hsymbol
            cases h
            exact symbol?_shorter hsymbol
          · cases h

end Token

namespace Lexeme

/-- The bytes that some characters take. -/
def bytes (text : List Char) : Nat := text.foldr (fun c n => c.utf8Size + n) 0

/-- Split a text that starts after `position` bytes of the source.  The first
fault, with its position, ends it. -/
def scan (position : Nat) (text : List Char) : Except (LexicalFault × Nat) (List Lexeme) :=
  match text with
  | [] => .ok []
  | c :: rest =>
      if Token.isBlank c then scan (position + c.utf8Size) rest
      else
        match h : Token.read (c :: rest) with
        | .error fault => .error (fault, position)
        | .ok (token, after) =>
            have : after.length < rest.length + 1 := Token.read_shorter h
            let taken := (c :: rest).take ((c :: rest).length - after.length)
            let stop := position + bytes taken
            match scan stop after with
            | .error fault => .error fault
            | .ok lexemes => .ok (⟨token, position, stop⟩ :: lexemes)
termination_by text.length

/-- The tokens of a source text. -/
def ofSource (source : String) : Except (LexicalFault × Nat) (List Lexeme) :=
  scan 0 source.toList

end Lexeme
end Placement
