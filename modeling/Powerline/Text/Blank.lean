/-
Blank characters, as the Unicode property `White_Space` lists them, and the text left when the
blanks at its end are cut off.
-/

namespace Powerline.Text

/-- The code points with the property `White_Space`: first and last of each range. -/
def blankRanges : List (Nat × Nat) :=
  [(0x09, 0x0D), (0x20, 0x20), (0x85, 0x85), (0xA0, 0xA0), (0x1680, 0x1680), (0x2000, 0x200A),
    (0x2028, 0x2029), (0x202F, 0x202F), (0x205F, 0x205F), (0x3000, 0x3000)]

def isBlank (c : Char) : Bool := blankRanges.any fun r => r.1 ≤ c.toNat && c.toNat ≤ r.2

/-- A text without the blanks at its end. -/
def trimEnd (s : String) : String :=
  String.ofList (s.toList.reverse.dropWhile isBlank).reverse

example : blankRanges.foldl (fun n r => n + (r.2 - r.1 + 1)) 0 = 25 := by decide

end Powerline.Text
