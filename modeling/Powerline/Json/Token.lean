/-
The tokens of JSON text, by its strict grammar: how each is spelled, and how a text
is cut into them, character by character. A string that escapes half a surrogate pair is a token
too, but one without a text.
-/

namespace Powerline.Json

/-- A token. A string is `none` where its escapes make no text. -/
inductive Token where
  | openBrace | closeBrace | openBracket | closeBracket | colon | comma
  | null
  | bool (value : Bool)
  | number (literal : List Char)
  | string (text : Option (List Char))
  deriving DecidableEq, Repr

/-! ## Spelling -/

/-- A character inside a string: quotes, backslashes and control characters are escaped, and nothing
else is. -/
def spellChar (c : Char) : List Char :=
  if c = '"' then ['\\', '"']
  else if c = '\\' then ['\\', '\\']
  else if c = '\x08' then ['\\', 'b']
  else if c = '\x0c' then ['\\', 'f']
  else if c = '\n' then ['\\', 'n']
  else if c = '\x0d' then ['\\', 'r']
  else if c = '\t' then ['\\', 't']
  else if c.toNat < 0x20 then
    ['\\', 'u', '0', '0', Nat.digitChar (c.toNat / 16), Nat.digitChar (c.toNat % 16)]
  else [c]

/-- The characters of a token. A string without a text is spelled as the first half of a surrogate
pair alone. -/
def Token.spell : Token → List Char
  | openBrace => ['\x7b']
  | closeBrace => ['\x7d']
  | openBracket => ['[']
  | closeBracket => [']']
  | colon => [':']
  | comma => [',']
  | null => ['n', 'u', 'l', 'l']
  | bool true => ['t', 'r', 'u', 'e']
  | bool false => ['f', 'a', 'l', 's', 'e']
  | number literal => literal
  | string (some text) => '"' :: text.flatMap spellChar ++ ['"']
  | string none => ['"', '\\', 'u', 'd', '8', '0', '0', '"']

/-! ## Character classes -/

def isSpace (c : Char) : Bool := c = ' ' || c = '\t' || c = '\n' || c = '\x0d'

def isNumberChar (c : Char) : Bool :=
  c.isDigit || c = '-' || c = '+' || c = '.' || c = 'e' || c = 'E'

def isWordChar (c : Char) : Bool := c.isLower

def hexValue? (c : Char) : Option Nat :=
  if c.isDigit then some (c.toNat - '0'.toNat)
  else if 'a' ≤ c ∧ c ≤ 'f' then some (c.toNat - 'a'.toNat + 10)
  else if 'A' ≤ c ∧ c ≤ 'F' then some (c.toNat - 'A'.toNat + 10)
  else none

/-! ## Numbers -/

/-- What follows the digits of a whole part, which has no zero in front of other digits. -/
def afterWhole : List Char → Option (List Char)
  | [] => none
  | '0' :: rest => some rest
  | c :: rest => if c.isDigit then some (rest.dropWhile Char.isDigit) else none

/-- What follows a run of digits that has at least one. -/
def afterDigits : List Char → Option (List Char)
  | [] => none
  | c :: rest => if c.isDigit then some (rest.dropWhile Char.isDigit) else none

/-- What follows a fraction, if there is one. -/
def afterFraction : List Char → Option (List Char)
  | '.' :: rest => afterDigits rest
  | rest => some rest

def afterExponent : List Char → Option (List Char)
  | [] => some []
  | c :: rest =>
    if c = 'e' ∨ c = 'E' then
      match rest with
      | '+' :: digits | '-' :: digits => afterDigits digits
      | digits => afterDigits digits
    else some (c :: rest)

def isNumber (literal : List Char) : Bool :=
  let unsigned := match literal with
    | '-' :: rest => rest
    | rest => rest
  (afterWhole unsigned >>= afterFraction >>= afterExponent) == some []

/-! ## Strings -/

/-- The first half of a surrogate pair. -/
def isHighSurrogate (n : Nat) : Bool := 0xD800 ≤ n && n < 0xDC00

def isLowSurrogate (n : Nat) : Bool := 0xDC00 ≤ n && n < 0xE000

/-- The text of a string's characters and escaped units: two units of a pair are one character, and
a half without the other makes no text. -/
def textOf? : List Nat → Option (List Char)
  | [] => some []
  | [n] => if isHighSurrogate n || isLowSurrogate n then none else some [Char.ofNat n]
  | n :: m :: rest =>
    -- two halves make one character beyond the first plane
    if isHighSurrogate n && isLowSurrogate m then
      (textOf? rest).map (Char.ofNat (0x10000 + (n - 0xD800) * 0x400 + (m - 0xDC00)) :: ·)
    else if isHighSurrogate n || isLowSurrogate n then none
    else (textOf? (m :: rest)).map (Char.ofNat n :: ·)

/-- The character a one-letter escape stands for. -/
def unescape? : Char → Option Char
  | '"' => some '"'
  | '\\' => some '\\'
  | '/' => some '/'
  | 'b' => some '\x08'
  | 'f' => some '\x0c'
  | 'n' => some '\n'
  | 'r' => some '\x0d'
  | 't' => some '\t'
  | _ => none

/-! ## Cutting a text into tokens -/

/-- Where in a token the text is. What is read of it so far is kept last first; an escaped unit has
so many digits missing, and a value so far. -/
inductive Inside where
  | nothing
  | word (read : List Char)
  | number (read : List Char)
  | string (read : List Nat)
  | escape (read : List Nat)
  | unit (read : List Nat) (missing value : Nat)
  deriving DecidableEq, Repr

/-- The tokens read so far, last first, and the one begun. -/
structure Lexer where
  tokens : List Token := []
  inside : Inside := .nothing
  deriving DecidableEq, Repr

namespace Lexer

/-- Takes a finished token. -/
def emit (t : Token) (l : Lexer) : Lexer := { tokens := t :: l.tokens, inside := .nothing }

/-- Ends a word or a number, which have no mark of their own for their end. -/
def settle (l : Lexer) : Option Lexer :=
  match l.inside with
  | .word read =>
    if read.reverse = ['n', 'u', 'l', 'l'] then some (l.emit .null)
    else if read.reverse = ['t', 'r', 'u', 'e'] then some (l.emit (.bool true))
    else if read.reverse = ['f', 'a', 'l', 's', 'e'] then some (l.emit (.bool false))
    else none
  | .number read => if isNumber read.reverse then some (l.emit (.number read.reverse)) else none
  | .nothing => some l
  | .string _ | .escape _ | .unit _ _ _ => none

/-- Takes the first character of a token, or white space. -/
def start (c : Char) (l : Lexer) : Option Lexer :=
  if isSpace c then some l
  else if c = '\x7b' then some (l.emit .openBrace)
  else if c = '\x7d' then some (l.emit .closeBrace)
  else if c = '[' then some (l.emit .openBracket)
  else if c = ']' then some (l.emit .closeBracket)
  else if c = ':' then some (l.emit .colon)
  else if c = ',' then some (l.emit .comma)
  else if c = '"' then some { l with inside := .string [] }
  else if c = '-' ∨ c.isDigit then some { l with inside := .number [c] }
  else if isWordChar c then some { l with inside := .word [c] }
  else none

def step (l : Lexer) (c : Char) : Option Lexer :=
  match l.inside with
  | .nothing => l.start c
  | .word read =>
    if isWordChar c then some { l with inside := .word (c :: read) } else l.settle >>= start c
  | .number read =>
    if isNumberChar c then some { l with inside := .number (c :: read) } else l.settle >>= start c
  | .string read =>
    if c = '"' then some (l.emit (.string (textOf? read.reverse)))
    else if c = '\\' then some { l with inside := .escape read }
    else if c.toNat < 0x20 then none
    else some { l with inside := .string (c.toNat :: read) }
  | .escape read =>
    if c = 'u' then some { l with inside := .unit read 4 0 }
    else (unescape? c).map fun d => { l with inside := .string (d.toNat :: read) }
  | .unit read missing value =>
    (hexValue? c).map fun digit =>
      let value := 16 * value + digit
      if missing ≤ 1 then { l with inside := .string (value :: read) }
      else { l with inside := .unit read (missing - 1) value }

end Lexer

/-- The tokens of a text, or none if it cannot be cut into tokens. -/
def tokens? (text : List Char) : Option (List Token) :=
  (text.foldlM Lexer.step {} >>= Lexer.settle).map fun l => l.tokens.reverse

example : tokens? "[1, \"a\\u00e9\"]".toList =
    some [.openBracket, .number ['1'], .comma, .string (some ['a', 'é']), .closeBracket] := by
  decide

end Powerline.Json
