/-
The frames that switch a module: an address frame selects a unit of a house, a function frame
tells the selected units what to do. Both are a header and a code byte, and the interface echoes
the sum of a frame's bytes.
-/
import Powerline.Code

namespace Powerline

/-- The bytes of one message to the interface. -/
abbrev Frame := List UInt8

namespace Frame

/-- The byte that releases a frame whose echo was right: send it on the power line. -/
def release : UInt8 := 0x00

/-- The byte that answers a request for the time; a clock frame starts with it. -/
def timeAnswer : UInt8 := 0x9B

/-- The highest dim level a header has room for. -/
def maxDim : UInt8 := 22

/-- The header bit that is always set. -/
def syncBit : UInt8 := 0x04

/-- The header bit of a function frame; an address frame has it clear. -/
def functionBit : UInt8 := 0x02

/-- The header bit of an extended transmission. -/
def extendedBit : UInt8 := 0x01

/-- What the interface echoes for a frame: the sum of its bytes modulo 256. -/
def checksum (frame : Frame) : UInt8 := frame.foldl (· + ·) 0

/-- A high and a low nibble as one byte. -/
def pack (high low : UInt8) : UInt8 := high <<< 4 ||| low

/-- The frame that selects a unit of a house. -/
def address (house : House) (unit : UInt8) : Except Fault Frame :=
  (unitNibble unit).map fun nibble => [syncBit, pack house.nibble nibble]

/-- The header of a function frame: the dim level for a function that takes one, and the bits that
mark a function and an extended transmission. -/
def functionHeader (function : Function) (dim : UInt8) : UInt8 :=
  (if function.takesDim then dim else 0) <<< 3 ||| syncBit ||| functionBit |||
    (if function = .extendedCode then extendedBit else 0)

/-- The frame that makes the selected units of a house act. A dim level above the highest is refused
even for a function that carries none. -/
def function (house : House) (function : Function) (dim : UInt8) : Except Fault Frame :=
  if dim > maxDim then
    .error (.invalidFrame
      ("dim " ++ toString dim.toNat ++ " exceeds " ++ toString maxDim.toNat))
  else .ok [functionHeader function dim, pack house.nibble function.code]

/-! ## The sum of bytes -/

theorem foldl_add (bytes : List UInt8) (start : UInt8) :
    bytes.foldl (· + ·) start = start + checksum bytes := by
  induction bytes generalizing start with
  | nil => simp [checksum]
  | cons b rest ih => simp only [checksum, List.foldl_cons]; rw [ih, ih (0 + b)]; simp [UInt8.add_assoc]

theorem checksum_cons (b : UInt8) (rest : Frame) : checksum (b :: rest) = b + checksum rest := by
  simp only [checksum, List.foldl_cons]; rw [foldl_add]; simp [checksum]

example : address .A 2 = .ok [0x04, 0x6E] := rfl
example : function .A .on 22 = .ok [0x06, 0x62] := rfl

end Frame

end Powerline
