/-
The tokens that a text spells are the tokens it is cut into. Words and numbers have no mark of their
own for their end, so between two of them there has to be another token.
-/
import Powerline.Json.Token
import Mathlib.Tactic
import Mathlib.Data.List.TakeWhile

namespace Powerline.Json

/-! ## Numbers -/

/-- A text with nothing in it that may not be in a number. -/
def NumberText (text : List Char) : Prop := ∀ c ∈ text, isNumberChar c = true

theorem NumberText.cons {c : Char} {text : List Char} (h : isNumberChar c = true)
    (htext : NumberText text) : NumberText (c :: text) := by
  intro d hd
  rcases List.mem_cons.1 hd with rfl | hd
  · exact h
  · exact htext d hd

theorem isNumberChar_of_isDigit {c : Char} (h : c.isDigit = true) : isNumberChar c = true := by
  simp [isNumberChar, h]

theorem NumberText.of_dropWhile {text : List Char} (h : NumberText (text.dropWhile Char.isDigit)) :
    NumberText text := by
  intro c hc
  rw [← List.takeWhile_append_dropWhile (p := Char.isDigit) (l := text), List.mem_append] at hc
  rcases hc with hc | hc
  · exact isNumberChar_of_isDigit (List.mem_takeWhile_imp hc)
  · exact h c hc

theorem NumberText.of_afterDigits {text rest : List Char} (h : afterDigits text = some rest)
    (hrest : NumberText rest) : NumberText text := by
  cases text with
  | nil => cases h
  | cons c text =>
    simp only [afterDigits, Option.ite_none_right_eq_some, Option.some.injEq] at h
    obtain ⟨hdigit, rfl⟩ := h
    exact hrest.of_dropWhile.cons (isNumberChar_of_isDigit hdigit)

/-- A whole part begins with a digit. -/
theorem NumberText.of_afterWhole {text rest : List Char} (h : afterWhole text = some rest)
    (hrest : NumberText rest) : ∃ c tail, text = c :: tail ∧ c.isDigit = true ∧ NumberText tail := by
  unfold afterWhole at h
  split at h
  · cases h
  · next tail =>
    obtain rfl := Option.some.inj h
    exact ⟨'0', tail, rfl, by decide, hrest⟩
  · next c tail _ =>
    obtain ⟨hdigit, htail⟩ := Option.ite_none_right_eq_some.1 h
    obtain rfl := Option.some.inj htail
    exact ⟨c, tail, rfl, hdigit, hrest.of_dropWhile⟩

theorem NumberText.of_afterFraction {text rest : List Char} (h : afterFraction text = some rest)
    (hrest : NumberText rest) : NumberText text := by
  unfold afterFraction at h
  split at h
  · exact (hrest.of_afterDigits h).cons (by decide)
  · obtain rfl := Option.some.inj h
    exact hrest

theorem NumberText.of_afterExponent {text rest : List Char} (h : afterExponent text = some rest)
    (hrest : NumberText rest) : NumberText text := by
  unfold afterExponent at h
  split at h
  · exact List.forall_mem_nil _
  · next c tail =>
    split at h
    · next he =>
      have hc : isNumberChar c = true := by rcases he with rfl | rfl <;> decide
      refine NumberText.cons hc ?_
      split at h
      · exact (hrest.of_afterDigits h).cons (by decide)
      · exact (hrest.of_afterDigits h).cons (by decide)
      · exact hrest.of_afterDigits h
    · obtain rfl := Option.some.inj h
      exact hrest

/-- A number begins with a digit or a minus sign. -/
theorem numberText_of_isNumber {literal : List Char} (h : isNumber literal = true) :
    ∃ c tail, literal = c :: tail ∧ (c = '-' ∨ c.isDigit = true) ∧ NumberText tail := by
  have hunsigned : ∀ text, (afterWhole text >>= afterFraction >>= afterExponent) = some [] →
      ∃ c tail, text = c :: tail ∧ c.isDigit = true ∧ NumberText tail := by
    intro text htext
    obtain ⟨afterF, hF, hE⟩ := Option.bind_eq_some_iff.1 htext
    obtain ⟨afterW, hW, hF⟩ := Option.bind_eq_some_iff.1 hF
    have hempty : NumberText [] := List.forall_mem_nil _
    exact ((hempty.of_afterExponent hE).of_afterFraction hF).of_afterWhole hW
  unfold isNumber at h
  rw [beq_iff_eq] at h
  split at h
  · next rest =>
    obtain ⟨c, tail, rfl, hdigit, htail⟩ := hunsigned _ h
    exact ⟨'-', c :: tail, rfl, .inl rfl, htail.cons (isNumberChar_of_isDigit hdigit)⟩
  · obtain ⟨c, tail, rfl, hdigit, htail⟩ := hunsigned _ h
    exact ⟨c, tail, rfl, .inr hdigit, htail⟩

/-! ## Texts of strings -/

theorem toNat_range (c : Char) : c.toNat < 0xD800 ∨ 0xDFFF < c.toNat := by
  have hvalid : c.toNat < 0xD800 ∨ 0xDFFF < c.toNat ∧ c.toNat < 0x110000 := c.valid
  omega

@[simp] theorem isHighSurrogate_toNat (c : Char) : isHighSurrogate c.toNat = false := by
  have hrange := toNat_range c
  simp only [isHighSurrogate, Bool.and_eq_false_iff, decide_eq_false_iff_not]
  omega

@[simp] theorem isLowSurrogate_toNat (c : Char) : isLowSurrogate c.toNat = false := by
  have hrange := toNat_range c
  simp only [isLowSurrogate, Bool.and_eq_false_iff, decide_eq_false_iff_not]
  omega

/-- Characters are no halves of pairs, so they make the text of just these characters. -/
theorem textOf?_map_toNat (text : List Char) : textOf? (text.map Char.toNat) = some text := by
  induction text with
  | nil => rfl
  | cons c rest ih =>
    cases rest with
    | nil => simp [textOf?]
    | cons d rest =>
      rw [List.map_cons] at ih
      rw [List.map_cons, List.map_cons, textOf?, ih]
      simp

theorem hexValue?_digitChar : ∀ d < 16, hexValue? (Nat.digitChar d) = some d := by decide

namespace Lexer

/-- An escape for a control character has its code in its last two digits. -/
theorem read_control (done : List Token) (read : List Nat) {n : Nat} (h : n < 256) :
    ['\\', 'u', '0', '0', Nat.digitChar (n / 16), Nat.digitChar (n % 16)].foldlM step
      ⟨done, .string read⟩ = some ⟨done, .string (n :: read)⟩ := by
  have hhigh := hexValue?_digitChar (n / 16) (by omega)
  have hlow := hexValue?_digitChar (n % 16) (by omega)
  have hzero := hexValue?_digitChar 0 (by decide)
  have hwhole : 16 * (n / 16) + n % 16 = n := Nat.div_add_mod n 16
  simp [List.foldlM, step, hhigh, hlow, hwhole, show hexValue? '0' = some 0 from hzero]

/-- A character inside a string is read back from its spelling. -/
theorem read_spellChar (done : List Token) (read : List Nat) (c : Char) :
    (spellChar c).foldlM step ⟨done, .string read⟩ = some ⟨done, .string (c.toNat :: read)⟩ := by
  unfold spellChar
  split_ifs with hquote hslash h8 h12 h10 h13 h9 hcontrol
  case pos | pos | pos | pos | pos | pos | pos => subst c; rfl
  · exact read_control done read (by omega)
  · simp [List.foldlM, step, hquote, hslash, hcontrol]

theorem read_text (done : List Token) (read : List Nat) (text : List Char) :
    (text.flatMap spellChar).foldlM step ⟨done, .string read⟩ =
      some ⟨done, .string ((text.map Char.toNat).reverse ++ read)⟩ := by
  induction text generalizing read with
  | nil => rfl
  | cons c rest ih =>
    rw [List.flatMap_cons, List.foldlM_append, read_spellChar, Option.bind_eq_bind,
      Option.bind_some, ih]
    simp

end Lexer

/-! ## Tokens -/

/-- Whether a token has no mark of its own for its end. -/
def Token.isBare : Token → Bool
  | .null | .bool _ | .number _ => true
  | _ => false

/-- A token that a text can spell: what it holds as a number is one. -/
def Token.Legible (t : Token) : Prop := ∀ literal, t = .number literal → isNumber literal = true

namespace Lexer

/-- The lexer has no token open that it could not end, and has these, last first, if it does. -/
def Settled (done : List Token) (l : Lexer) : Prop := l.settle = some { tokens := done }

theorem Settled.eq_of_nothing {done : List Token} {l : Lexer} (h : Settled done l)
    (hinside : l.inside = .nothing) : l = { tokens := done } := by
  unfold Settled settle at h
  rw [hinside] at h
  exact Option.some.inj h

/-- A character that cannot go on a word or a number begins a token. -/
theorem Settled.step_eq {done : List Token} {l : Lexer} (h : Settled done l) {c : Char}
    (hword : isWordChar c = false) (hnumber : isNumberChar c = false) :
    l.step c = start c { tokens := done } := by
  rcases l with ⟨tokens, inside⟩
  unfold Settled at h
  cases inside with
  | nothing => simp only [step, Settled.eq_of_nothing h rfl]
  | word read => simp [step, hword, h]
  | number read => simp [step, hnumber, h]
  | string read => cases h
  | escape read => cases h
  | unit read missing value => cases h

/-- A token with an end of its own is taken whole, whatever was open before. -/
theorem Settled.read_closed {done : List Token} {l : Lexer} (h : Settled done l) {t : Token}
    (closed : t.isBare = false) : t.spell.foldlM step l = some { tokens := t :: done } := by
  cases t with
  | null | bool _ | number _ => cases closed
  | openBrace | closeBrace | openBracket | closeBracket | colon | comma =>
    simp only [Token.spell, List.foldlM_cons, List.foldlM_nil]
    rw [h.step_eq (by decide) (by decide)]
    rfl
  | string text =>
    have hquote : l.step '"' = some ⟨done, .string []⟩ := by
      rw [h.step_eq (by decide) (by decide)]
      rfl
    cases text with
    | none =>
      simp only [Token.spell, List.foldlM_cons]
      rw [hquote]
      rfl
    | some text =>
      simp only [Token.spell, List.foldlM_cons, List.foldlM_append, List.cons_append]
      simp only [hquote, read_text, Option.bind_eq_bind, Option.bind_some, List.foldlM_nil]
      simp [step, emit, textOf?_map_toNat]

theorem read_numberText (done : List Token) (read : List Char) {text : List Char}
    (h : NumberText text) :
    text.foldlM step ⟨done, .number read⟩ = some ⟨done, .number (text.reverse ++ read)⟩ := by
  induction text generalizing read with
  | nil => rfl
  | cons c rest ih =>
    have hc : isNumberChar c = true := h c List.mem_cons_self
    have hrest : NumberText rest := fun d hd => h d (List.mem_cons_of_mem _ hd)
    rw [List.foldlM_cons, step]
    simp only [hc, if_true, Option.bind_eq_bind, Option.bind_some]
    rw [ih _ hrest, List.reverse_cons, List.append_assoc]
    rfl

/-- A digit or a minus sign begins a number. -/
theorem start_number (done : List Token) {c : Char} (h : c = '-' ∨ c.isDigit = true) :
    start c { tokens := done } = some ⟨done, .number [c]⟩ := by
  rcases h with rfl | hdigit
  · rfl
  · have hne : ∀ d : Char, d.isDigit = false → c ≠ d := by
      rintro d hd rfl
      exact absurd hdigit (by rw [hd]; decide)
    simp [start, isSpace, hdigit, hne ' ' rfl, hne '\t' rfl, hne '\n' rfl, hne '\x0d' rfl,
      hne '\x7b' rfl, hne '\x7d' rfl, hne '[' rfl, hne ']' rfl, hne ':' rfl, hne ',' rfl,
      hne '"' rfl]

/-- A word or a number is open when it is read, and can end there. -/
theorem read_bare (done : List Token) {t : Token} (bare : t.isBare = true) (legible : t.Legible) :
    ∃ l, t.spell.foldlM step { tokens := done } = some l ∧ Settled (t :: done) l := by
  cases t with
  | openBrace | closeBrace | openBracket | closeBracket | colon | comma | string _ => cases bare
  | null => exact ⟨_, rfl, rfl⟩
  | bool value => cases value <;> exact ⟨_, rfl, rfl⟩
  | number literal =>
    obtain ⟨c, tail, rfl, hfirst, htail⟩ := numberText_of_isNumber (legible _ rfl)
    refine ⟨⟨done, .number (tail.reverse ++ [c])⟩, ?_, ?_⟩
    · rw [Token.spell, List.foldlM_cons]
      simp only [step, start_number done hfirst, Option.bind_eq_bind, Option.bind_some]
      exact read_numberText done [c] htail
    · have hread : (tail.reverse ++ [c]).reverse = c :: tail := by simp
      have hnumber : isNumber (c :: tail) = true := legible _ rfl
      unfold Settled settle
      simp only [hread, if_pos hnumber]
      rfl

theorem read_token {done : List Token} {l : Lexer} (h : Settled done l) {t : Token}
    (apart : t.isBare = true → l.inside = .nothing) (legible : t.Legible) :
    ∃ l', t.spell.foldlM step l = some l' ∧ Settled (t :: done) l' ∧
      (t.isBare = false → l'.inside = .nothing) := by
  rcases hbare : t.isBare with _ | _
  · exact ⟨_, h.read_closed hbare, rfl, fun _ => rfl⟩
  · obtain rfl := h.eq_of_nothing (apart hbare)
    obtain ⟨l', hread, hsettled⟩ := read_bare done hbare legible
    exact ⟨l', hread, hsettled, by rintro ⟨⟩⟩

end Lexer

/-- Tokens between which no bare ends meet. -/
def Apart (ts : List Token) : Prop := ts.IsChain fun a b => a.isBare = true → b.isBare = false

-- A bare token is still open when it is read, so what the induction carries is not that nothing is open
-- but that what is open could end here, and does so with the next token.
theorem Lexer.read_tokens (ts : List Token) {done : List Token} {l : Lexer} (h : Settled done l)
    (first : ∀ t ∈ ts.head?, t.isBare = true → l.inside = .nothing) (apart : Apart ts)
    (legible : ∀ t ∈ ts, t.Legible) :
    ∃ l', (ts.flatMap Token.spell).foldlM step l = some l' ∧ Settled (ts.reverse ++ done) l' := by
  induction ts generalizing done l with
  | nil => exact ⟨l, rfl, h⟩
  | cons t rest ih =>
    obtain ⟨l', hread, hsettled, hclosed⟩ :=
      read_token h (first t rfl) (legible t List.mem_cons_self)
    have hnext : ∀ t' ∈ rest.head?, t'.isBare = true → l'.inside = .nothing := by
      intro t' ht' hbare
      refine hclosed (Bool.eq_false_iff.2 fun ht => ?_)
      have hends : t'.isBare = false := (List.isChain_cons.1 apart).1 t' ht' ht
      exact absurd hbare (by rw [hends]; decide)
    obtain ⟨l'', hrest, hdone⟩ := ih hsettled hnext (List.isChain_cons.1 apart).2
      fun t' ht' => legible t' (List.mem_cons_of_mem _ ht')
    refine ⟨l'', ?_, by simpa using hdone⟩
    rw [List.flatMap_cons, List.foldlM_append, hread]
    exact hrest

/-- The text of tokens is cut into just these tokens. -/
theorem tokens?_spell {ts : List Token} (apart : Apart ts) (legible : ∀ t ∈ ts, t.Legible) :
    tokens? (ts.flatMap Token.spell) = some ts := by
  have hempty : Lexer.Settled [] {} := rfl
  obtain ⟨l, hread, hsettled⟩ := Lexer.read_tokens ts hempty (fun _ _ _ => rfl) apart legible
  unfold Lexer.Settled at hsettled
  unfold tokens?
  rw [hread, Option.bind_eq_bind, Option.bind_some, hsettled]
  simp

end Powerline.Json
