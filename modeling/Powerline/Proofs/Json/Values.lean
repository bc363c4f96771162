/-
A value is read back from its tokens, and so from its text if all its numbers are numbers.
-/
import Powerline.Json.Value
import Powerline.Proofs.Json.Tokens

namespace Powerline.Json

/-! ## Tokens of a value -/

theorem Apart.cons {t : Token} {ts : List Token} (ht : t.isBare = false) (h : Apart ts) :
    Apart (t :: ts) :=
  List.isChain_cons.2 ⟨fun _ _ hbare => absurd hbare (by rw [ht]; decide), h⟩

/-- Tokens stay apart with a mark between them. -/
theorem Apart.append_cons {t : Token} {ts us : List Token} (hts : Apart ts) (ht : t.isBare = false)
    (hus : Apart us) : Apart (ts ++ t :: us) := by
  refine List.isChain_append.2 ⟨hts, hus.cons ht, ?_⟩
  rintro a - b hb -
  obtain rfl := Option.some.inj hb
  exact ht

theorem apart_nil : Apart [] := List.isChain_nil

mutual

theorem apart_tokens : ∀ j : Json, Apart j.tokens
  | null | bool _ | number _ | string _ => List.isChain_singleton _
  | array items => (apart_itemsTokens items).append_cons rfl apart_nil |>.cons rfl
  | object members => (apart_membersTokens members).append_cons rfl apart_nil |>.cons rfl

theorem apart_itemsTokens : ∀ items : List Json, Apart (itemsTokens items)
  | [] => apart_nil
  | [item] => apart_tokens item
  | item :: next :: rest => (apart_tokens item).append_cons rfl (apart_itemsTokens (next :: rest))

theorem apart_membersTokens : ∀ members : List (Option (List Char) × Json),
    Apart (membersTokens members)
  | [] => apart_nil
  | [(_, value)] => ((apart_tokens value).cons rfl).cons rfl
  | (_, value) :: next :: rest =>
    (((apart_tokens value).append_cons rfl (apart_membersTokens (next :: rest))).cons rfl).cons rfl

end

/-! ## Reading a value's tokens -/

namespace Reader

/-- A value may come next. -/
def TakesValue (r : Reader) : Prop := ∀ t, t ≠ .closeBracket → r.step t = open? r.stack t

/-- A key may come next, after these members. -/
def TakesKey (members : List (Option (List Char) × Json)) (r : Reader) : Prop :=
  ∀ key, r.step (.string key) = some { stack := r.stack, expect := .colon members key }

theorem takesValue_value (stack : List Open) : TakesValue { stack, expect := .value } :=
  fun _ _ => rfl

theorem takesValue_firstItem (stack : List Open) : TakesValue { stack, expect := .firstItem } := by
  intro t ht
  cases t with
  | closeBracket => exact absurd rfl ht
  | _ => rfl

theorem takesKey_firstKey (stack : List Open) : TakesKey [] { stack, expect := .firstKey } :=
  fun _ => rfl

theorem takesKey_key (members : List (Option (List Char) × Json)) (stack : List Open) :
    TakesKey members { stack, expect := .key members } :=
  fun _ => rfl

-- One statement for each kind of token list, so that a value inside a container is read by the same
-- recursion; the stack below it is any stack.
mutual

/-- A value's tokens are read as the value, wherever one may come. -/
theorem read_tokens : ∀ (j : Json) (r : Reader), r.TakesValue →
    j.tokens.foldlM step r = some (place j r.stack)
  | .null, r, h | .bool _, r, h | .number _, r, h | .string _, r, h => by
    rw [tokens, List.foldlM_cons, h _ (by rintro ⟨⟩)]
    rfl
  | .array [], r, h | .object [], r, h => by
    rw [tokens, List.cons_append, List.foldlM_cons, h _ (by rintro ⟨⟩)]
    rfl
  | .array (item :: rest), r, h => by
    have hitems := read_itemsTokens (item :: rest) [] r.stack _
      (takesValue_firstItem (.array [] :: r.stack)) rfl (List.cons_ne_nil _ _)
    rw [tokens, List.cons_append, List.foldlM_cons, h _ (by rintro ⟨⟩), open?, Option.bind_eq_bind,
      Option.bind_some, List.foldlM_append, hitems, List.append_nil]
    simp [step]
  | .object (member :: rest), r, h => by
    have hmembers := read_membersTokens (member :: rest) [] _ (takesKey_firstKey r.stack)
      (List.cons_ne_nil _ _)
    rw [tokens, List.cons_append, List.foldlM_cons, h _ (by rintro ⟨⟩), open?, Option.bind_eq_bind,
      Option.bind_some, List.foldlM_append, hmembers, List.append_nil]
    simp [step]

/-- The items of an array are put on it one after the other. -/
theorem read_itemsTokens : ∀ (items done : List Json) (stack : List Open) (r : Reader),
    r.TakesValue → r.stack = .array done :: stack → items ≠ [] →
    (itemsTokens items).foldlM step r =
      some { stack := .array (items.reverse ++ done) :: stack, expect := .separator }
  | [], _, _, _, _, _, hne => absurd rfl hne
  | [item], done, stack, r, h, hstack, _ => by
    rw [itemsTokens, read_tokens item r h, hstack]
    rfl
  | item :: next :: rest, done, stack, r, h, hstack, _ => by
    have hrest := read_itemsTokens (next :: rest) (item :: done) stack _ (takesValue_value _) rfl
      (List.cons_ne_nil _ _)
    have hcomma : step (place item r.stack) .comma =
        some { stack := .array (item :: done) :: stack, expect := .value } := by rw [hstack]; rfl
    rw [itemsTokens, List.foldlM_append, read_tokens item r h, Option.bind_eq_bind, Option.bind_some,
      List.foldlM_cons, hcomma, Option.bind_eq_bind, Option.bind_some, hrest]
    simp

/-- The members of an object are put on it one after the other. -/
theorem read_membersTokens : ∀ (members done : List (Option (List Char) × Json)) (r : Reader),
    r.TakesKey done → members ≠ [] →
    (membersTokens members).foldlM step r =
      some { stack := .object (members.reverse ++ done) none :: r.stack, expect := .separator }
  | [], _, _, _, hne => absurd rfl hne
  | [(key, value)], done, r, h, _ => by
    have hvalue := read_tokens value _ (takesValue_value (.object done key :: r.stack))
    rw [membersTokens, List.foldlM_cons, h key, Option.bind_eq_bind, Option.bind_some,
      List.foldlM_cons]
    exact hvalue
  | (key, value) :: next :: rest, done, r, h, _ => by
    have hvalue := read_tokens value _ (takesValue_value (.object done key :: r.stack))
    have hrest := read_membersTokens (next :: rest) ((key, value) :: done) _
      (takesKey_key _ r.stack) (List.cons_ne_nil _ _)
    have hcolon : step { stack := r.stack, expect := .colon done key } .colon =
        some { stack := .object done key :: r.stack, expect := .value } := rfl
    have hcomma : step (place value (.object done key :: r.stack)) .comma =
        some { stack := r.stack, expect := .key ((key, value) :: done) } := rfl
    simp only [membersTokens, List.cons_append, List.foldlM_cons, List.foldlM_append, h key, hcolon,
      hvalue, hcomma, hrest, Option.bind_eq_bind, Option.bind_some]
    simp

end

end Reader

/-- A value is read back from its tokens. -/
theorem ofTokens?_tokens (j : Json) : ofTokens? j.tokens = some j := by
  unfold ofTokens?
  rw [Reader.read_tokens j {} (Reader.takesValue_value [])]
  rfl

/-! ## Text of a value -/

/-- A value that a text can write: its numbers are numbers. -/
def Legible (j : Json) : Prop := ∀ t ∈ j.tokens, t.Legible

theorem legible_membersTokens : ∀ members : List (Option (List Char) × Json),
    (∀ t ∈ membersTokens members, t.Legible) ↔ ∀ m ∈ members, m.2.Legible
  | [] => by simp [membersTokens]
  | [(_, value)] => by simp [membersTokens, Token.Legible, Legible]
  | (_, value) :: next :: rest => by
    have hrest := legible_membersTokens (next :: rest)
    rw [membersTokens, List.forall_mem_append, List.forall_mem_cons, List.forall_mem_cons,
      List.forall_mem_cons, hrest, List.forall_mem_cons]
    simp [Token.Legible, Legible]

/-- An object is legible if what it holds is. -/
theorem legible_object (members : List (Option (List Char) × Json)) :
    (Json.object members).Legible ↔ ∀ m ∈ members, m.2.Legible := by
  rw [← legible_membersTokens, Legible, tokens, List.forall_mem_append, List.forall_mem_cons,
    List.forall_mem_singleton]
  simp [Token.Legible]

/-- A value is read back from its text. -/
theorem parse?_render {j : Json} (h : j.Legible) : parse? j.render = some j := by
  unfold parse? render
  rw [String.toList_ofList, tokens?_spell (apart_tokens j) h, Option.bind_eq_bind, Option.bind_some,
    ofTokens?_tokens]

end Powerline.Json
