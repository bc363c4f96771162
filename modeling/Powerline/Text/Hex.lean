/-
Lowercase hexadecimal text of bytes and of 16-bit words: two digits a byte, four a word.
-/

namespace Powerline.Text

/-- The digit of a number below sixteen. -/
def hexDigit (n : Nat) : Char := Nat.digitChar n

/-- The two digits of a byte, the high one first. -/
def hexByte (b : UInt8) : String :=
  String.ofList [hexDigit (b.toNat / 16), hexDigit (b.toNat % 16)]

/-- The four digits of a word, the highest first. -/
def hexWord (w : UInt16) : String :=
  String.ofList [hexDigit (w.toNat / 4096), hexDigit (w.toNat / 256 % 16),
    hexDigit (w.toNat / 16 % 16), hexDigit (w.toNat % 16)]

/-- The digits of a byte string, nothing between two bytes. -/
def hexBytes (bytes : List UInt8) : String := String.join (bytes.map hexByte)

end Powerline.Text
