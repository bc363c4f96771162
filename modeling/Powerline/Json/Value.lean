/-
JSON values, the tokens that write them, and the reader that takes them from tokens again. The
reader keeps the containers still open on a stack, so that a text may nest to any depth.
-/
import Powerline.Json.Token

namespace Powerline

/-- A JSON value. A number is its literal; a string or key is `none` where its escapes make no
text; members stand in the order they are written. -/
inductive Json where
  | null
  | bool (value : Bool)
  | number (literal : List Char)
  | string (text : Option (List Char))
  | array (items : List Json)
  | object (members : List (Option (List Char) × Json))

namespace Json

/-! ## Values of one kind -/

def ofString (s : String) : Json := .string (some s.toList)

def ofNat (n : Nat) : Json := .number (Nat.toDigits 10 n)

def ofMembers (members : List (String × Json)) : Json :=
  .object (members.map fun (key, value) => (some key.toList, value))

def toString? : Json → Option String
  | .string (some text) => some (String.ofList text)
  | _ => none

def toBool? : Json → Option Bool
  | .bool b => some b
  | _ => none

/-- A number written with digits only: no sign, fraction or exponent, even where the value would be
whole. -/
def toNat? : Json → Option Nat
  | .number literal =>
    if literal.all Char.isDigit then some (Nat.ofDigitChars 10 literal 0) else none
  | _ => none

/-! ## Writing -/

mutual

def tokens : Json → List Token
  | null => [.null]
  | bool b => [.bool b]
  | number literal => [.number literal]
  | string text => [.string text]
  | array items => .openBracket :: itemsTokens items ++ [.closeBracket]
  | object members => .openBrace :: membersTokens members ++ [.closeBrace]

/-- The tokens of an array's items, a comma between two. -/
def itemsTokens : List Json → List Token
  | [] => []
  | [item] => item.tokens
  | item :: next :: rest => item.tokens ++ .comma :: itemsTokens (next :: rest)

/-- The tokens of an object's members, a comma between two. -/
def membersTokens : List (Option (List Char) × Json) → List Token
  | [] => []
  | [(key, value)] => .string key :: .colon :: value.tokens
  | (key, value) :: next :: rest =>
    .string key :: .colon :: value.tokens ++ .comma :: membersTokens (next :: rest)

end

/-- The text of a value, with nothing between its tokens. -/
def render (j : Json) : String := String.ofList (j.tokens.flatMap Token.spell)

/-! ## Reading -/

/-- A container that is still open, with what it holds so far, last first; an object also has the key
of the member that is being read. -/
inductive Open where
  | array (items : List Json)
  | object (members : List (Option (List Char) × Json)) (key : Option (List Char))

/-- What the reader expects next. A first item or key may also be the end of its container, and a
separator is a comma or that end. -/
inductive Expect where
  | value
  | firstItem
  | firstKey
  | key (members : List (Option (List Char) × Json))
  | colon (members : List (Option (List Char) × Json)) (key : Option (List Char))
  | separator
  | nothing (value : Json)

/-- The open containers, innermost first, and what is expected next. -/
structure Reader where
  stack : List Open := []
  expect : Expect := .value

namespace Reader

/-- Puts a complete value where it belongs. -/
def place (j : Json) : List Open → Reader
  | [] => { expect := .nothing j }
  | .array items :: rest => { stack := .array (j :: items) :: rest, expect := .separator }
  | .object members key :: rest =>
    { stack := .object ((key, j) :: members) none :: rest, expect := .separator }

/-- Takes the first token of a value. -/
def open? (stack : List Open) : Token → Option Reader
  | .null => some (place .null stack)
  | .bool b => some (place (.bool b) stack)
  | .number literal => some (place (.number literal) stack)
  | .string text => some (place (.string text) stack)
  | .openBracket => some { stack := .array [] :: stack, expect := .firstItem }
  | .openBrace => some { stack, expect := .firstKey }
  | .closeBrace | .closeBracket | .colon | .comma => none

def step (r : Reader) (t : Token) : Option Reader :=
  match r.expect, t with
  | .value, t => open? r.stack t
  | .firstItem, .closeBracket =>
    match r.stack with
    | .array items :: rest => some (place (.array items.reverse) rest)
    | _ => none
  | .firstItem, t => open? r.stack t
  | .firstKey, .closeBrace => some (place (.object []) r.stack)
  | .firstKey, .string key => some { r with expect := .colon [] key }
  | .key members, .string key => some { r with expect := .colon members key }
  | .colon members key, .colon =>
    some { stack := .object members key :: r.stack, expect := .value }
  | .separator, .comma =>
    match r.stack with
    | .array _ :: _ => some { r with expect := .value }
    -- the object is open again only once its next member has a key
    | .object members _ :: rest => some { stack := rest, expect := .key members }
    | [] => none
  | .separator, .closeBracket =>
    match r.stack with
    | .array items :: rest => some (place (.array items.reverse) rest)
    | _ => none
  | .separator, .closeBrace =>
    match r.stack with
    | .object members _ :: rest => some (place (.object members.reverse) rest)
    | _ => none
  | _, _ => none

end Reader

/-- The value that tokens write, if they write exactly one. -/
def ofTokens? (ts : List Token) : Option Json :=
  match ts.foldlM Reader.step {} with
  | some { expect := .nothing j, .. } => some j
  | _ => none

/-- The value that a text writes, if it writes exactly one. -/
def parse? (text : String) : Option Json := tokens? text.toList >>= ofTokens?

end Json

end Powerline
