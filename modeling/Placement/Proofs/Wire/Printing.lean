import Placement.Json.Printer
import Placement.Proofs.Decimal.Spelling
/-! # Different documents have different texts

Documents are written one after the other, without blanks.  **A text says where its first
document ends** (`Json.chars_ends`): a quoted text at its first bare quote, a number
before the first character that no number has, everything else at its own closing bracket.  So
no two documents share a text (`Json.render_injective`).
-/
namespace Placement

/-- Texts that are equal are split alike. -/
theorem append_inj_of_forall {p : Char → Bool} {a b s t : List Char}
    (ha : ∀ c ∈ a, p c = true) (hb : ∀ c ∈ b, p c = true) (hs : ∀ c ∈ s.head?, p c = false)
    (ht : ∀ c ∈ t.head?, p c = false) (h : a ++ s = b ++ t) : a = b ∧ s = t := by
  obtain ⟨htake, hdrop⟩ := span_append ha hs
  obtain ⟨htake', hdrop'⟩ := span_append hb ht
  rw [h] at htake hdrop
  exact ⟨htake.symm.trans htake', hdrop.symm.trans hdrop'⟩

namespace Json
variable {s t : List Char}

/-! ## Quoted texts -/

/-- The characters that are escaped. -/
def escaped : List Char := '"' :: '\\' :: (List.range 32).map Char.ofNat

theorem toNat_of_not_mem_escaped {c : Char} (hc : c ∉ escaped) : 32 ≤ c.toNat := by
  refine Nat.le_of_not_lt fun hsmall => hc ?_
  refine List.mem_cons_of_mem _ (List.mem_cons_of_mem _ ?_)
  exact List.mem_map.mpr ⟨c.toNat, List.mem_range.mpr hsmall, Char.ofNat_toNat c⟩

/-- Other characters stay, and are neither quote nor backslash. -/
theorem escapeChar_of_not_mem {c : Char} (hc : c ∉ escaped) :
    escapeChar c = [c] ∧ c ≠ '"' ∧ c ≠ '\\' := by
  have hlarge := toNat_of_not_mem_escaped hc
  have hne : ∀ d ∈ escaped, c ≠ d := fun d hd h => hc (h ▸ hd)
  refine ⟨?_, hne '"' (by decide), hne '\\' (by decide)⟩
  rw [escapeChar, if_neg (hne _ (by decide)), if_neg (hne _ (by decide)),
    if_neg (hne _ (by decide)), if_neg (hne _ (by decide)), if_neg (hne _ (by decide)),
    if_neg (hne _ (by decide)), if_neg (hne _ (by decide)), if_neg (Nat.not_lt.mpr hlarge)]

/-- Escapes start with a backslash. -/
theorem head?_escapeChar {c : Char} (hc : c ∈ escaped) : (escapeChar c).head? = some '\\' := by
  have hall : (escaped.all fun c => (escapeChar c).head? == some '\\') = true := by decide
  exact eq_of_beq (List.all_eq_true.mp hall c hc)

/-- What is written for one character does not start what is written for the other. -/
def Apart (c d : Char) : Prop :=
  ¬escapeChar c <+: escapeChar d ∧ ¬escapeChar d <+: escapeChar c

instance : DecidableRel Apart := fun _ _ => inferInstanceAs (Decidable (_ ∧ _))

instance : Std.Symm Apart := ⟨fun _ _ h => h.symm⟩

/-- **No escape starts another one.** -/
theorem pairwise_escaped : escaped.Pairwise Apart := by decide +kernel

/-- **Written characters do not run into each other.** -/
theorem escapeChar_append_inj {c d : Char} (h : escapeChar c ++ s = escapeChar d ++ t) :
    c = d := by
  have hbare : ∀ {c d : Char} {s t : List Char}, c ∉ escaped → d ∈ escaped →
      escapeChar c ++ s ≠ escapeChar d ++ t := by
    intro c d s t hc hd h
    obtain ⟨hsame, -, hbackslash⟩ := escapeChar_of_not_mem hc
    have hhead := congrArg List.head? h
    rw [hsame, List.head?_append, List.head?_append, head?_escapeChar hd] at hhead
    exact hbackslash (Option.some.inj hhead)
  by_cases hc : c ∈ escaped <;> by_cases hd : d ∈ escaped
  · by_contra hne
    obtain ⟨hcd, hdc⟩ := pairwise_escaped.forall hc hd hne
    rcases List.prefix_or_prefix_of_prefix (List.prefix_append (escapeChar c) s)
      (h ▸ List.prefix_append (escapeChar d) t) with hprefix | hprefix
    · exact hcd hprefix
    · exact hdc hprefix
  · exact absurd h.symm (hbare hd hc)
  · exact absurd h (hbare hc hd)
  · rw [(escapeChar_of_not_mem hc).1, (escapeChar_of_not_mem hd).1] at h
    exact (List.cons.inj h).1

/-- A written character is no bare quote. -/
theorem escapeChar_append_ne (c : Char) (s t : List Char) : escapeChar c ++ s ≠ '"' :: t := by
  intro h
  have hhead := congrArg List.head? h
  by_cases hc : c ∈ escaped
  · rw [List.head?_append, head?_escapeChar hc] at hhead
    exact absurd (Option.some.inj hhead) (by decide)
  · obtain ⟨hsame, hquote, -⟩ := escapeChar_of_not_mem hc
    rw [hsame] at hhead
    exact hquote (Option.some.inj hhead)

theorem escaped_append_inj {cs ds : List Char}
    (h : cs.flatMap escapeChar ++ '"' :: s = ds.flatMap escapeChar ++ '"' :: t) :
    cs = ds ∧ s = t := by
  induction cs generalizing ds with
  | nil =>
      cases ds with
      | nil => exact ⟨rfl, (List.cons.inj h).2⟩
      | cons d ds =>
          rw [List.flatMap_cons, List.append_assoc] at h
          exact absurd h.symm (escapeChar_append_ne d _ _)
  | cons c cs ih =>
      cases ds with
      | nil =>
          rw [List.flatMap_cons, List.append_assoc] at h
          exact absurd h (escapeChar_append_ne c _ _)
      | cons d ds =>
          rw [List.flatMap_cons, List.flatMap_cons, List.append_assoc, List.append_assoc] at h
          obtain rfl := escapeChar_append_inj h
          obtain ⟨rfl, hrest⟩ := ih (List.append_cancel_left h)
          exact ⟨rfl, hrest⟩

/-- **A quoted text ends at its first bare quote.** -/
theorem quote_append_inj {a b : String} (h : quote a ++ s = quote b ++ t) : a = b ∧ s = t := by
  rw [quote, quote, List.cons_append, List.cons_append, List.append_assoc, List.append_assoc] at h
  obtain ⟨hchars, hrest⟩ := escaped_append_inj (List.cons.inj h).2
  exact ⟨String.toList_inj.mp hchars, hrest⟩

/-! ## Numbers -/

/-- What may follow a document inside a text. -/
def Follows (rest : List Char) : Prop := ∀ c ∈ rest.head?, c = ',' ∨ c = ']' ∨ c = '\x7d'

theorem Follows.not_numeral (h : Follows s) : ∀ c ∈ s.head?, Numeral.isNumeral c = false := by
  intro c hc
  rcases h c hc with rfl | rfl | rfl <;> decide

/-- The document is a number. -/
def IsNumber : Json → Prop
  | .int _ => True
  | .float _ => True
  | _ => False

theorem isNumeral_of_isNumber {j : Json} (hj : j.IsNumber) :
    j.chars ≠ [] ∧ ∀ c ∈ j.chars, Numeral.isNumeral c = true := by
  cases j with
  | int n => exact ⟨Numeral.toString_ne_nil n, Numeral.isNumeral_toString n⟩
  | float x =>
      obtain ⟨hne, hall, -⟩ := FloatStyle.document.render_spec x.finite
      exact ⟨hne, hall⟩
  | _ => exact absurd hj id

theorem eq_of_numbers {j k : Json} (hj : j.IsNumber) (hk : k.IsNumber) (h : j.chars = k.chars) :
    j = k := by
  have hapart (x : FiniteFloat) (n : ℤ) : (Json.float x).chars ≠ (Json.int n).chars :=
    (FloatStyle.document.render_spec x.finite).2.2 rfl n
  cases j with
  | int n =>
      cases k with
      | int m => exact congrArg Json.int (Numeral.toString_injective h)
      | float y => exact absurd h.symm (hapart y n)
      | _ => exact absurd hk id
  | float x =>
      cases k with
      | int m => exact absurd h (hapart x m)
      | float y =>
          obtain ⟨x, hx⟩ := x
          obtain ⟨y, hy⟩ := y
          cases FloatStyle.document.render_injective hx hy (String.toList_inj.mp h)
          rfl
      | _ => exact absurd hk id
  | _ => exact absurd hj id

/-! ## Lists -/

/-- What follows the first of some parts that are joined by commas. -/
def commaTail : List (List Char) → List Char
  | [] => []
  | parts => ',' :: commas parts

theorem commas_cons (part : List Char) (rest : List (List Char)) :
    commas (part :: rest) = part ++ commaTail rest := by
  cases rest with
  | nil => exact (List.append_nil part).symm
  | cons next rest => rfl

/-- The text of an entry says where it ends. -/
def Ends {α : Type} (text : α → List Char) (x : α) : Prop :=
  ∀ (y : α) (s t : List Char), Follows s → Follows t → text x ++ s = text y ++ t → x = y ∧ s = t

/-- **So does the text of a list**, up to a closing bracket with which no entry starts. -/
theorem commas_append_inj {α : Type} {text : α → List Char} {close : Char}
    (hclose : close = ']' ∨ close = '\x7d')
    (hstart : ∀ x rest, (text x ++ rest).head? ≠ some close) {xs ys : List α}
    (hends : ∀ x ∈ xs, Ends text x)
    (h : commas (xs.map text) ++ close :: s = commas (ys.map text) ++ close :: t) :
    xs = ys ∧ s = t := by
  have hfollows : ∀ (parts : List (List Char)) (rest : List Char),
      Follows (commaTail parts ++ close :: rest) := by
    intro parts rest c hc
    cases parts with
    | nil =>
        cases hc
        exact .inr hclose
    | cons part parts =>
        cases hc
        exact .inl rfl
  induction xs generalizing ys with
  | nil =>
      cases ys with
      | nil => exact ⟨rfl, (List.cons.inj h).2⟩
      | cons y ys =>
          rw [List.map_cons, commas_cons, List.append_assoc] at h
          exact absurd (congrArg List.head? h).symm (hstart y _)
  | cons x xs ih =>
      cases ys with
      | nil =>
          rw [List.map_cons, commas_cons, List.append_assoc] at h
          exact absurd (congrArg List.head? h) (hstart x _)
      | cons y ys =>
          rw [List.map_cons, List.map_cons, commas_cons, commas_cons, List.append_assoc,
            List.append_assoc] at h
          obtain ⟨rfl, hrest⟩ := hends x List.mem_cons_self y _ _ (hfollows _ _) (hfollows _ _) h
          have hcomma : close ≠ ',' := by
            rcases hclose with rfl | rfl <;> decide
          -- Both lists go on with a comma, or both end.
          have hmore : commas (xs.map text) ++ close :: s = commas (ys.map text) ++ close :: t := by
            cases xs <;> cases ys
            · exact hrest
            · exact absurd (List.cons.inj hrest).1 hcomma
            · exact absurd (List.cons.inj hrest).1.symm hcomma
            · exact (List.cons.inj hrest).2
          obtain ⟨rfl, hst⟩ := ih (fun x hx => hends x (List.mem_cons_of_mem _ hx)) hmore
          exact ⟨rfl, hst⟩

/-! ## Documents -/

theorem charsOfItems_eq_map (items : List Json) : charsOfItems items = items.map chars := by
  induction items with
  | nil => rfl
  | cons item rest ih => rw [charsOfItems, ih, List.map_cons]

/-- The text of a field. -/
def fieldChars (field : String × Json) : List Char := quote field.1 ++ ':' :: field.2.chars

theorem charsOfFields_eq_map (fields : List (String × Json)) :
    charsOfFields fields = fields.map fieldChars := by
  induction fields with
  | nil => rfl
  | cons field rest ih => rw [charsOfFields, ih, List.map_cons, fieldChars]

/-- What the first character of a document tells. -/
inductive Kind
  | null
  | bool (b : Bool)
  | number
  | string
  | array
  | object

/-- The kind of a document. -/
def kind : Json → Kind
  | .null => .null
  | .bool b => .bool b
  | .int _ => .number
  | .float _ => .number
  | .string _ => .string
  | .array _ => .array
  | .object _ => .object

/-- The kind of document that a character starts. -/
def kindOf? (c : Char) : Option Kind :=
  if Numeral.isNumeral c then some .number
  else if c = 'n' then some .null
  else if c = 't' then some (.bool true)
  else if c = 'f' then some (.bool false)
  else if c = '"' then some .string
  else if c = '[' then some .array
  else if c = '\x7b' then some .object
  else none

theorem kindOf?_chars (j : Json) : ∃ c rest, j.chars = c :: rest ∧ kindOf? c = some j.kind := by
  have hnumber : j.IsNumber → ∃ c rest, j.chars = c :: rest ∧ kindOf? c = some .number := by
    intro hj
    obtain ⟨hne, hall⟩ := isNumeral_of_isNumber hj
    obtain ⟨c, rest, hchars⟩ := List.exists_cons_of_ne_nil hne
    refine ⟨c, rest, hchars, if_pos (hall c ?_)⟩
    rw [hchars]
    exact List.mem_cons_self
  cases j with
  | null => exact ⟨'n', _, rfl, rfl⟩
  | bool b => cases b <;> exact ⟨_, _, rfl, rfl⟩
  | int n => exact hnumber trivial
  | float x => exact hnumber trivial
  | string text => exact ⟨'"', _, rfl, rfl⟩
  | array items => exact ⟨'[', _, rfl, rfl⟩
  | object fields => exact ⟨'\x7b', _, rfl, rfl⟩

theorem head?_chars_append_ne (j : Json) (rest : List Char) :
    (j.chars ++ rest).head? ≠ some ']' := by
  obtain ⟨c, more, hchars, hkind⟩ := kindOf?_chars j
  rw [hchars]
  rintro ⟨⟩
  cases hkind

/-- **The first character tells the kind.** -/
theorem kind_eq_of_append {j k : Json} (h : j.chars ++ s = k.chars ++ t) : j.kind = k.kind := by
  obtain ⟨c, rest, hj, hc⟩ := kindOf?_chars j
  obtain ⟨d, rest', hk, hd⟩ := kindOf?_chars k
  rw [hj, hk] at h
  rw [(List.cons.inj h).1, hd] at hc
  exact (Option.some.inj hc).symm

/-- Two documents of one kind. -/
inductive SameKind : Json → Json → Prop
  | null : SameKind .null .null
  | bool (b : Bool) : SameKind (.bool b) (.bool b)
  | number {j k : Json} : j.IsNumber → k.IsNumber → SameKind j k
  | string (a b : String) : SameKind (.string a) (.string b)
  | array (xs ys : List Json) : SameKind (.array xs) (.array ys)
  | object (fs gs : List (String × Json)) : SameKind (.object fs) (.object gs)

theorem sameKind_of_kind_eq {j k : Json} (h : j.kind = k.kind) : SameKind j k := by
  cases j <;> cases k <;> cases h
  · exact .null
  · exact .bool _
  · exact .number trivial trivial
  · exact .number trivial trivial
  · exact .number trivial trivial
  · exact .number trivial trivial
  · exact .string _ _
  · exact .array _ _
  · exact .object _ _

theorem fieldChars_ends {field : String × Json} (hends : Ends chars field.2) :
    Ends fieldChars field := by
  rintro ⟨name, x⟩ s t hs ht h
  rw [fieldChars, fieldChars, List.append_assoc, List.append_assoc] at h
  obtain ⟨hname, hvalue⟩ := quote_append_inj h
  obtain ⟨hx, hst⟩ := hends x s t hs ht (List.cons.inj hvalue).2
  exact ⟨Prod.ext hname hx, hst⟩

theorem head?_fieldChars_append_ne (field : String × Json) (rest : List Char) :
    (fieldChars field ++ rest).head? ≠ some '\x7d' :=
  fun h => absurd (Option.some.inj h) (by decide)

/-- **The text of a document says where it ends**, if the texts of its parts do. -/
theorem ends_of_parts {j : Json} (hparts : ∀ x : Json, sizeOf x < sizeOf j → Ends chars x) :
    Ends chars j := by
  intro k s t hs ht h
  cases sameKind_of_kind_eq (kind_eq_of_append h) with
  | null => exact ⟨rfl, List.append_cancel_left h⟩
  | bool b => exact ⟨rfl, List.append_cancel_left h⟩
  | number hj hk =>
      obtain ⟨hchars, hst⟩ := append_inj_of_forall (isNumeral_of_isNumber hj).2
        (isNumeral_of_isNumber hk).2 hs.not_numeral ht.not_numeral h
      exact ⟨eq_of_numbers hj hk hchars, hst⟩
  | string a b =>
      obtain ⟨rfl, hst⟩ := quote_append_inj h
      exact ⟨rfl, hst⟩
  | array xs ys =>
      have hitems : ∀ x ∈ xs, Ends chars x := by
        intro x hx
        refine hparts x ?_
        have hlt := List.sizeOf_lt_of_mem hx
        rw [array.sizeOf_spec]
        omega
      rw [chars, chars, charsOfItems_eq_map, charsOfItems_eq_map, List.cons_append,
        List.cons_append, List.append_assoc, List.append_assoc] at h
      obtain ⟨rfl, hst⟩ := commas_append_inj (.inl rfl) head?_chars_append_ne hitems
        (List.cons.inj h).2
      exact ⟨rfl, hst⟩
  | object fs gs =>
      have hfields : ∀ field ∈ fs, Ends fieldChars field := by
        rintro ⟨name, x⟩ hfield
        refine fieldChars_ends (hparts x ?_)
        have hlt := List.sizeOf_lt_of_mem hfield
        rw [Prod.mk.sizeOf_spec] at hlt
        rw [object.sizeOf_spec]
        omega
      rw [chars, chars, charsOfFields_eq_map, charsOfFields_eq_map, List.cons_append,
        List.cons_append, List.append_assoc, List.append_assoc] at h
      obtain ⟨rfl, hst⟩ := commas_append_inj (.inr rfl) head?_fieldChars_append_ne hfields
        (List.cons.inj h).2
      exact ⟨rfl, hst⟩

theorem chars_ends (j : Json) : Ends chars j := ends_of_parts fun x _ => chars_ends x
termination_by sizeOf j

/-- **No two documents have the same text.** -/
theorem render_injective {j k : Json} (h : j.render = k.render) : j = k := by
  have hchars : j.chars ++ [] = k.chars ++ [] := by
    rw [List.append_nil, List.append_nil]
    exact String.ofList_inj.mp h
  exact (chars_ends j k [] [] nofun nofun hchars).1

end Json
end Placement
